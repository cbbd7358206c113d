import DeviceTrust.Proofs.Json.RoundTrip
import Mathlib.Data.List.Nodup

/-!
# Records are read by name

A record whose known members have different names is read as those members, so each field is what
was written under its name, or absent. What is written for a text, a list of texts or an integer is
then read as just that. In the other direction, a member that a reader asks for comes once in any object
that it takes, whoever wrote it.
-/

namespace DeviceTrust.Json

variable {α : Type} {names : List String} {members : List (String × Json)} {f : Fields} {name : String}

theorem mapM_map_eq_some {β : Type} {write : α → β} {read? : β → Option α} (h : ∀ x, read? (write x) = some x)
    (xs : List α) : (xs.map write).mapM read? = some xs := by
  have hpure : read? ∘ write = pure := funext h
  rw [List.mapM_map, hpure, List.mapM_pure, List.map_id']
  rfl

theorem eraseDups_of_nodup {xs : List String} (h : xs.Nodup) : xs.eraseDups = xs := by
  induction xs with
  | nil => rfl
  | cons x xs ih =>
    rw [List.nodup_cons] at h
    have hfilter : xs.filter (fun y => !y == x) = xs := by
      refine List.filter_eq_self.mpr fun y hy => ?_
      rw [Bool.not_eq_true', beq_eq_false_iff_ne]
      rintro rfl
      exact h.1 hy
    rw [List.eraseDups_cons, hfilter, ih h.2]

/-- **A record is read as its known members**, where no two of these have the same name. -/
theorem fields?_record {known : List (String × Json)}
    (hknown : members.filter (fun (name, _) => names.contains name) = known)
    (hdistinct : (known.map Prod.fst).Nodup) : fields? names (record members) = some ⟨false, known⟩ := by
  have hall : (spelled members).mapM (fun m => (unspell m.1).map fun name => (name, m.2)) = some members :=
    mapM_map_eq_some (fun m => by simp only [unspell_spell]; rfl) members
  have honce : distinct (known.map Prod.fst) = true := by
    rw [distinct, eraseDups_of_nodup hdistinct]
    exact beq_self_eq_true _
  have hnamed : membersNamed? names (spelled members) = some known := by
    refine (congrArg (Option.bind · _) hall).trans ?_
    simp only [Option.bind_some, hknown]
    exact if_pos honce
  change (membersNamed? names (spelled members)).map _ = _
  rw [hnamed]
  rfl

/-- The members of a record whose fields need not all be there. -/
def present (entries : List (String × Option Json)) : List (String × Json) :=
  entries.filterMap fun (name, v) => v.map fun v => (name, v)

theorem present_cons (name : String) (v : Option Json) (entries : List (String × Option Json)) :
    present ((name, v) :: entries) = present [(name, v)] ++ present entries := by
  cases v <;> rfl

theorem names_present (entries : List (String × Option Json)) :
    ((present entries).map Prod.fst).Sublist (entries.map Prod.fst) := by
  induction entries with
  | nil => exact .slnil
  | cons e entries ih =>
    obtain ⟨name, _ | v⟩ := e
    · exact ih.cons name
    · exact ih.cons_cons name

theorem lookup_present (entries : List (String × Option Json)) (h : (entries.map Prod.fst).Nodup) :
    (present entries).lookup name = (entries.lookup name).join := by
  induction entries with
  | nil => rfl
  | cons e entries ih =>
    rw [List.map_cons, List.nodup_cons] at h
    obtain ⟨key, v⟩ := e
    rw [present_cons, List.lookup_append, ih h.2, List.lookup_cons]
    cases hkey : name == key with
    | true =>
      obtain rfl := beq_iff_eq.mp hkey
      cases v with
      | some v => simp [present]
      | none =>
        have habsent : entries.lookup name = none := by
          refine List.lookup_eq_none_iff.mpr fun e he => bne_iff_ne.mpr ?_
          rintro rfl
          exact h.1 (List.mem_map.mpr ⟨e, he, rfl⟩)
        rw [habsent]
        rfl
    | false => cases v <;> simp [present, List.lookup_cons, hkey]

theorem written_texts (xs : List String) : Written (texts xs) := by
  refine .array fun v hv => ?_
  obtain ⟨s, -, rfl⟩ := List.mem_map.mp hv
  exact .text s

theorem written_present {entries : List (String × Option Json)} (h : ∀ e ∈ entries, ∀ v ∈ e.2, Written v) :
    Written (record (present entries)) := by
  refine .record fun m hm => ?_
  obtain ⟨⟨name, value⟩, he, hvalue⟩ := List.mem_filterMap.mp hm
  obtain ⟨v, hv, rfl⟩ := Option.map_eq_some_iff.mp hvalue
  exact h (name, value) he v hv

/-- A record of all the known fields, some of them left out, is read with just the others. -/
theorem fields?_present (entries : List (String × Option Json)) (h : (entries.map Prod.fst).Nodup) :
    fields? (entries.map Prod.fst) (record (present entries)) = some ⟨false, present entries⟩ := by
  have hnames := names_present entries
  refine fields?_record (List.filter_eq_self.mpr fun m hm => ?_) (hnames.nodup h)
  exact List.contains_iff_mem.mpr (hnames.subset (List.mem_map_of_mem hm))

theorem text?_text (s : String) : text? (text s) = some s := unspell_spell s

theorem listOf?_texts (xs : List String) : listOf? text? (texts xs) = some xs :=
  mapM_map_eq_some text?_text xs

theorem optional?_of_get? (write : α → Json) {value? : Json → Option α} {v : Option α}
    (hread : ∀ x ∈ v, orNull? value? (write x) = some (some x)) (hget : f.get? name = v.map write) :
    f.optional? name value? = some v := by
  rw [Fields.optional?, hget]
  cases v with
  | none => rfl
  | some x => exact hread x rfl

theorem length_eraseDups_le (xs : List String) : xs.eraseDups.length ≤ xs.length := by
  cases xs with
  | nil => exact Nat.le_refl 0
  | cons x xs =>
    have hrest := length_eraseDups_le (xs.filter fun y => !y == x)
    have hfilter := List.length_filter_le (fun y => !y == x) xs
    rw [List.eraseDups_cons, List.length_cons, List.length_cons]
    omega
termination_by xs.length
decreasing_by
  have hfilter := List.length_filter_le (fun y => !y == x) xs
  rw [List.length_cons]
  omega

theorem nodup_of_distinct {xs : List String} (h : distinct xs = true) : xs.Nodup := by
  induction xs with
  | nil => exact List.nodup_nil
  | cons x xs ih =>
    have hlength := beq_iff_eq.mp h
    rw [List.eraseDups_cons, List.length_cons, List.length_cons] at hlength
    have herase := length_eraseDups_le (xs.filter fun y => !y == x)
    have hfilter := List.length_filter_le (fun y => !y == x) xs
    -- nothing was erased, so nothing was filtered out either
    have hall : ∀ y ∈ xs, (!y == x) = true := List.length_filter_eq_length_iff.mp (by omega)
    rw [List.filter_eq_self.mpr hall] at hlength
    refine List.nodup_cons.mpr ⟨fun hx => ?_, ih (beq_iff_eq.mpr (Nat.succ.inj hlength))⟩
    simpa using hall x hx

/-- A known member of an object that was read comes once, and another value in its place would be read just
so. -/
theorem membersNamed?_append_cons {before after : List (Bytes × Json)} {key : Bytes} {v : Json}
    {known : List (String × Json)} (h : membersNamed? names (before ++ (key, v) :: after) = some known)
    (hkey : unspell key = some name) (hname : name ∈ names) :
    ∃ l r, known = l ++ (name, v) :: r ∧ (∀ p ∈ l, p.1 ≠ name) ∧
      ∀ v', membersNamed? names (before ++ (key, v') :: after) = some (l ++ (name, v') :: r) := by
  have hfilter (l r : List (String × Json)) (w : Json) : (l ++ (name, w) :: r).filter (fun p => names.contains p.1) =
      l.filter (fun p => names.contains p.1) ++ (name, w) :: r.filter (fun p => names.contains p.1) := by
    rw [List.filter_append, List.filter_cons_of_pos]
    exact List.contains_iff_mem.mpr hname
  simp only [membersNamed?, List.mapM_append, List.mapM_cons, hkey, Option.map_some, Option.bind_eq_bind,
    Option.pure_def, Option.bind_eq_some_iff] at h ⊢
  obtain ⟨all, ⟨b, hbefore, rest, ⟨_, ⟨⟩, a, hafter, ⟨⟩⟩, ⟨⟩⟩, h⟩ := h
  rw [hfilter, List.map_append, List.map_cons, Option.ite_none_right_eq_some] at h
  obtain ⟨hdistinct, ⟨⟩⟩ := h
  refine ⟨_, _, rfl, ?_, fun v' => ?_⟩
  · rintro p hp rfl
    have hnodup := nodup_of_distinct hdistinct
    exact List.disjoint_of_nodup_append hnodup (List.mem_map_of_mem hp) List.mem_cons_self
  · refine ⟨_, ⟨b, hbefore, _, ⟨_, rfl, a, hafter, rfl⟩, rfl⟩, ?_⟩
    rw [hfilter, List.map_append, List.map_cons, if_pos hdistinct]

theorem lookup_append_cons {l r : List (String × Json)} {v : Json} (hl : ∀ p ∈ l, p.1 ≠ name) :
    (l ++ (name, v) :: r).lookup name = some v := by
  have hnone : l.lookup name = none := List.lookup_eq_none_iff.mpr fun p hp => bne_iff_ne.mpr (hl p hp).symm
  rw [List.lookup_append, hnone, List.lookup_cons_self]
  rfl

theorem get?_of_fields? {members : List (Bytes × Json)} {key : Bytes} {v : Json}
    (h : fields? names (.object members) = some f) (hmem : (key, v) ∈ members) (hkey : unspell key = some name)
    (hname : name ∈ names) : f.get? name = some v := by
  obtain ⟨known, hknown, rfl⟩ := Option.map_eq_some_iff.mp h
  obtain ⟨before, after, rfl⟩ := List.append_of_mem hmem
  obtain ⟨l, r, rfl, hl, -⟩ := membersNamed?_append_cons hknown hkey hname
  exact lookup_append_cons hl

theorem exists_of_mem_mapM {β : Type} {read? : α → Option β} {xs : List α} {ys : List β} {y : β}
    (h : xs.mapM read? = some ys) (hy : y ∈ ys) : ∃ x ∈ xs, read? x = some y := by
  induction xs generalizing ys with
  | nil =>
    cases h
    cases hy
  | cons x xs ih =>
    simp only [List.mapM_cons, Option.bind_eq_bind, Option.pure_def, Option.bind_eq_some_iff] at h
    obtain ⟨first, hfirst, rest, hrest, ⟨⟩⟩ := h
    rcases List.mem_cons.mp hy with rfl | hy
    · exact ⟨x, List.mem_cons_self, hfirst⟩
    · obtain ⟨x', hx', hread⟩ := ih hrest hy
      exact ⟨x', List.mem_cons_of_mem _ hx', hread⟩

theorem exists_member_of_get? {members : List (Bytes × Json)} {v : Json}
    (h : fields? names (.object members) = some f) (hget : f.get? name = some v) :
    ∃ key, (key, v) ∈ members ∧ unspell key = some name := by
  obtain ⟨known, hknown, rfl⟩ := Option.map_eq_some_iff.mp h
  obtain ⟨l, r, rfl, -⟩ := List.lookup_eq_some_iff.mp hget
  obtain ⟨all, hall, hknown⟩ := Option.bind_eq_some_iff.mp hknown
  obtain ⟨-, hfilter⟩ := Option.ite_none_right_eq_some.mp hknown
  have hmem : (name, v) ∈ all :=
    (List.mem_filter.mp (Option.some.inj hfilter ▸ List.mem_append_right l List.mem_cons_self)).1
  obtain ⟨⟨key, v'⟩, hmember, hread⟩ := exists_of_mem_mapM hall hmem
  obtain ⟨_, hkey, ⟨⟩⟩ := Option.map_eq_some_iff.mp hread
  exact ⟨key, hmember, hkey⟩

/-- A name that comes as a text is read as that text, or not at all. -/
theorem choice?_of_text? {v : Json} {name : String} (h : text? v = some name) (names : List String)
    (emptyObject : Bool) : choice? names emptyObject v = if names.contains name then some name else none := by
  cases v with
  | string s =>
    have hspelling : unspell s = some name := h
    simp only [choice?, hspelling, Option.bind_eq_bind, Option.bind_some]
  | _ => cases h

end DeviceTrust.Json
