import DeviceTrust.Named
import Mathlib.Data.List.Induction
import Mathlib.Data.List.Nodup

/-!
# What is found under a name

Values by name are a map: what is found under a name decides everything, and the value inserted last under a name is
the one that is found. So the order of insertion is of account for one name only.
-/

namespace DeviceTrust

/-- The last item for which there is something decides what is found from behind. -/
theorem findSome?_reverse_eq_some_iff {α β : Type} {f : α → Option β} {items : List α} {b : β} :
    items.reverse.findSome? f = some b ↔
      ∃ lower a upper, items = lower ++ a :: upper ∧ f a = some b ∧ ∀ u ∈ upper, f u = none := by
  rw [List.findSome?_eq_some_iff]
  constructor
  · rintro ⟨upper, a, lower, hreverse, ha, hupper⟩
    refine ⟨lower.reverse, a, upper.reverse, ?_, ha, fun u hu => hupper u (List.mem_reverse.mp hu)⟩
    rw [← List.reverse_reverse items, hreverse, List.reverse_append, List.reverse_cons, List.append_assoc]
    rfl
  · rintro ⟨lower, a, upper, hitems, ha, hupper⟩
    refine ⟨upper.reverse, a, lower.reverse, ?_, ha, fun u hu => hupper u (List.mem_reverse.mp hu)⟩
    rw [hitems, List.reverse_append, List.reverse_cons, List.append_assoc]
    rfl

namespace Named

variable {α : Type} {es fs : List (String × α)} {name query : String} {value : α}

/-- Every name is below those that come after it. -/
def Ascending (es : List (String × α)) : Prop := (es.map Prod.fst).Pairwise (· < ·)

theorem Ascending.nodup (h : Ascending es) : (es.map Prod.fst).Nodup := by
  refine h.imp fun {a b} hlt heq => ?_
  rw [heq] at hlt
  exact String.lt_irrefl b hlt

theorem mem_names_insert :
    query ∈ (insert name value es).map Prod.fst ↔ query = name ∨ query ∈ es.map Prod.fst := by
  induction es with
  | nil => simp [insert]
  | cons e rest ih =>
    obtain ⟨k, v⟩ := e
    by_cases hk : k = name
    · subst hk
      simp [insert]
    · by_cases hlt : name < k
      · rw [insert, if_neg hk, if_pos hlt]
        simp
      · rw [insert, if_neg hk, if_neg hlt, List.map_cons, List.mem_cons, ih, List.map_cons, List.mem_cons]
        exact or_left_comm

theorem ascending_insert (h : Ascending es) : Ascending (insert name value es) := by
  induction es with
  | nil => exact List.pairwise_singleton _ _
  | cons e rest ih =>
    obtain ⟨k, v⟩ := e
    obtain ⟨hfirst, hrest⟩ := List.pairwise_cons.mp h
    by_cases hk : k = name
    · subst hk
      rw [insert, if_pos rfl]
      exact h
    · by_cases hlt : name < k
      · rw [insert, if_neg hk, if_pos hlt]
        refine List.pairwise_cons.mpr ⟨fun other hother => ?_, h⟩
        rcases List.mem_cons.mp hother with rfl | hother
        · exact hlt
        · exact String.lt_trans hlt (hfirst other hother)
      · have hgt : k < name := by
          rcases Std.lt_trichotomy name k with h | h | h
          · exact absurd h hlt
          · exact absurd h.symm hk
          · exact h
        rw [insert, if_neg hk, if_neg hlt]
        refine List.pairwise_cons.mpr ⟨fun other hother => ?_, ih hrest⟩
        rcases mem_names_insert.mp hother with rfl | hother
        · exact hgt
        · exact hfirst other hother

theorem lookup_cons_eq (name : String) (value : α) (es : List (String × α)) (query : String) :
    ((name, value) :: es).lookup query = if query = name then some value else es.lookup query := by
  rw [List.lookup_cons]
  by_cases h : query = name
  · subst h
    simp
  · rw [beq_eq_false_iff_ne.mpr h, if_neg h]

theorem isSome_lookup_iff : (es.lookup query).isSome = true ↔ query ∈ es.map Prod.fst := by
  rw [List.lookup_isSome_iff, List.mem_map]
  refine exists_congr fun e => and_congr_right fun _ => ?_
  rw [beq_iff_eq, eq_comm]

theorem lookup_insert (name : String) (value : α) (es : List (String × α)) (query : String) :
    (insert name value es).lookup query = if query = name then some value else es.lookup query := by
  induction es with
  | nil => exact lookup_cons_eq name value [] query
  | cons e rest ih =>
    obtain ⟨k, v⟩ := e
    by_cases hk : k = name
    · subst hk
      rw [insert, if_pos rfl, lookup_cons_eq, lookup_cons_eq]
      split <;> rfl
    · by_cases hlt : name < k
      · rw [insert, if_neg hk, if_pos hlt, lookup_cons_eq]
      · rw [insert, if_neg hk, if_neg hlt, lookup_cons_eq, lookup_cons_eq, ih]
        by_cases hquery : query = k
        · rw [if_pos hquery, if_pos hquery, if_neg (hquery ▸ hk)]
        · rw [if_neg hquery, if_neg hquery]

theorem lookup_eq_some_iff_mem (h : (es.map Prod.fst).Nodup) : es.lookup query = some value ↔ (query, value) ∈ es := by
  induction es with
  | nil => simp
  | cons e rest ih =>
    obtain ⟨k, v⟩ := e
    rw [List.map_cons, List.nodup_cons] at h
    rw [lookup_cons_eq, List.mem_cons, Prod.mk.injEq]
    by_cases hquery : query = k
    · subst hquery
      have hnot : (query, value) ∉ rest := fun hmem => h.1 (List.mem_map.mpr ⟨_, hmem, rfl⟩)
      simp [hnot, eq_comm]
    · rw [if_neg hquery, ih h.2]
      simp [hquery]

/-- **What is found under each name is all there is to values in ascending order.** -/
theorem ext_lookup (hes : Ascending es) (hfs : Ascending fs) (h : ∀ query, es.lookup query = fs.lookup query) :
    es = fs := by
  have hmem (e : String × α) : e ∈ es ↔ e ∈ fs := by
    obtain ⟨k, v⟩ := e
    rw [← lookup_eq_some_iff_mem hes.nodup, ← lookup_eq_some_iff_mem hfs.nodup, h]
  have hperm : es.Perm fs :=
    (List.perm_ext_iff_of_nodup (List.Nodup.of_map _ hes.nodup) (List.Nodup.of_map _ hfs.nodup)).mpr hmem
  rw [Ascending, List.pairwise_map] at hes hfs
  exact hperm.eq_of_pairwise (fun a b _ _ hab hba => absurd hba (String.lt_asymm hab)) hes hfs

theorem ofList_concat (es : List (String × α)) (name : String) (value : α) :
    ofList (es ++ [(name, value)]) = insert name value (ofList es) := by
  rw [ofList, List.foldl_append]
  rfl

theorem ofList_eq_nil_iff : ofList es = [] ↔ es = [] := by
  cases es using List.reverseRecOn with
  | nil => exact iff_of_true rfl rfl
  | append_singleton es e =>
    rw [ofList_concat]
    simp [insert_ne_nil]

theorem ascending_ofList (es : List (String × α)) : Ascending (ofList es) := by
  induction es using List.reverseRecOn with
  | nil => exact List.Pairwise.nil
  | append_singleton es e ih =>
    rw [ofList_concat]
    exact ascending_insert ih

theorem lookup_ofList (es : List (String × α)) (query : String) :
    (ofList es).lookup query = es.reverse.lookup query := by
  induction es using List.reverseRecOn with
  | nil => rfl
  | append_singleton es e ih =>
    rw [ofList_concat, lookup_insert, List.reverse_append, List.reverse_singleton, List.singleton_append,
      lookup_cons_eq, ih]

theorem lookup_ofList_eq_some_iff : (ofList es).lookup query = some value ↔
    ∃ before after, es = before ++ (query, value) :: after ∧ ∀ e ∈ after, e.1 ≠ query := by
  rw [lookup_ofList, List.lookup_eq_findSome?, findSome?_reverse_eq_some_iff]
  constructor
  · rintro ⟨before, ⟨k, v⟩, after, rfl, hfound, hafter⟩
    obtain ⟨hk, ⟨⟩⟩ := Option.ite_none_right_eq_some.mp hfound
    obtain rfl := beq_iff_eq.mp hk
    refine ⟨before, after, rfl, fun e he heq => ?_⟩
    have hnone := hafter e he
    rw [heq, beq_self_eq_true, if_pos rfl] at hnone
    cases hnone
  · rintro ⟨before, after, rfl, hafter⟩
    refine ⟨before, (query, value), after, rfl, if_pos (beq_self_eq_true query), fun e he => ?_⟩
    exact if_neg fun heq => hafter e he (beq_iff_eq.mp heq).symm

theorem ofList_perm (hperm : fs.Perm es) (hnodup : (es.map Prod.fst).Nodup) : ofList fs = ofList es := by
  have hfs : (fs.map Prod.fst).Nodup := (hperm.map _).nodup_iff.mpr hnodup
  refine ext_lookup (ascending_ofList fs) (ascending_ofList es) fun query => Option.ext fun value => ?_
  rw [lookup_ofList, lookup_ofList, lookup_eq_some_iff_mem (by rwa [List.map_reverse, List.nodup_reverse]),
    lookup_eq_some_iff_mem (by rwa [List.map_reverse, List.nodup_reverse]), List.mem_reverse, List.mem_reverse,
    hperm.mem_iff]

theorem ofList_of_ascending (h : Ascending es) : ofList es = es := by
  refine ext_lookup (ascending_ofList es) h fun query => Option.ext fun value => ?_
  rw [lookup_ofList, lookup_eq_some_iff_mem (by rw [List.map_reverse, List.nodup_reverse]; exact h.nodup),
    lookup_eq_some_iff_mem h.nodup, List.mem_reverse]

end Named

end DeviceTrust
