import DeviceTrust.Proofs.Json.Fields
import Mathlib.Data.List.Perm.Basic

/-!
# Which objects are records

An object is a record of some names if the names of all its members are texts and none of the given names
comes twice. That is a matter of its members and not of their order, and so is what the record gives
under a name: the value of the member of that name, unless it is `null`.
-/

namespace DeviceTrust.Json

variable {α : Type} {names : List String} {name : String} {members members' : List (Bytes × Json)} {f : Fields}
  {key : Bytes} {v : Json}

/-- Two members of which no given name is the name of both. -/
def Apart (names : List String) (m m' : Bytes × Json) : Prop :=
  ∀ name ∈ names, unspell m.1 = some name → unspell m'.1 ≠ some name

theorem Apart.symm {m m' : Bytes × Json} (h : Apart names m m') : Apart names m' m := fun name hname hm' hm =>
  h name hname hm hm'

/-- An object whose members have texts for names, and the given names at most once. -/
structure IsRecord (names : List String) (members : List (Bytes × Json)) : Prop where
  texts : ∀ m ∈ members, ∃ name, unspell m.1 = some name
  apart : members.Pairwise (Apart names)

theorem mapM_eq_some_iff {β : Type} {read? : α → Option β} {xs : List α} {ys : List β} :
    xs.mapM read? = some ys ↔ (∀ x ∈ xs, ∃ y, read? x = some y) ∧ xs.filterMap read? = ys := by
  induction xs generalizing ys with
  | nil => simp
  | cons x xs ih =>
    simp only [List.mapM_cons, Option.bind_eq_bind, Option.pure_def, Option.bind_eq_some_iff, ih, List.forall_mem_cons]
    constructor
    · rintro ⟨y, hy, _, ⟨hall, rfl⟩, ⟨⟩⟩
      exact ⟨⟨⟨y, hy⟩, hall⟩, List.filterMap_cons_some hy⟩
    · rintro ⟨⟨⟨y, hy⟩, hall⟩, rfl⟩
      exact ⟨y, hy, _, ⟨hall, rfl⟩, (List.filterMap_cons_some hy).symm ▸ rfl⟩

theorem distinct_iff {xs : List String} : distinct xs = true ↔ xs.Nodup := by
  refine ⟨nodup_of_distinct, fun h => ?_⟩
  rw [distinct, eraseDups_of_nodup h]
  exact beq_self_eq_true _

/-- **An object can be read as a record just if it is one.** -/
theorem exists_fields?_iff : (∃ f, fields? names (.object members) = some f) ↔ IsRecord names members := by
  let read? (m : Bytes × Json) : Option (String × Json) := (unspell m.1).map fun name => (name, m.2)
  have htext (m : Bytes × Json) : (∃ p, read? m = some p) ↔ ∃ name, unspell m.1 = some name := by
    simp [read?, Option.map_eq_some_iff]
  have hread : (∃ f, fields? names (.object members) = some f) ↔ ∃ all, members.mapM read? = some all ∧
      ((all.filter fun p => names.contains p.1).map Prod.fst).Nodup := by
    simp only [fields?, membersNamed?, Option.map_eq_some_iff, Option.bind_eq_bind, Option.bind_eq_some_iff,
      Option.ite_none_right_eq_some, distinct_iff]
    constructor
    · rintro ⟨_, _, ⟨all, hall, hnodup, -⟩, -⟩
      exact ⟨all, hall, hnodup⟩
    · rintro ⟨all, hall, hnodup⟩
      exact ⟨_, _, ⟨all, hall, hnodup, rfl⟩, rfl⟩
  have hapart (m m' : Bytes × Json) : (∀ p, read? m = some p → ∀ p', read? m' = some p' →
      names.contains p.1 = true → names.contains p'.1 = true → p.1 ≠ p'.1) ↔ Apart names m m' := by
    simp only [read?, Option.map_eq_some_iff, List.contains_iff_mem]
    constructor
    · intro h name hname hm hm'
      exact h _ ⟨name, hm, rfl⟩ _ ⟨name, hm', rfl⟩ hname hname rfl
    · rintro h _ ⟨name, hm, rfl⟩ _ ⟨name', hm', rfl⟩ hname _ rfl
      exact h name hname hm hm'
  simp only [hread, mapM_eq_some_iff, htext]
  constructor
  · rintro ⟨_, ⟨htexts, rfl⟩, hnodup⟩
    refine ⟨htexts, ?_⟩
    rw [List.Nodup, List.pairwise_map, List.pairwise_filter, List.pairwise_filterMap] at hnodup
    exact (List.Pairwise.iff hapart).mp hnodup
  · rintro ⟨htexts, hpairs⟩
    refine ⟨_, ⟨htexts, rfl⟩, ?_⟩
    rw [List.Nodup, List.pairwise_map, List.pairwise_filter, List.pairwise_filterMap]
    exact (List.Pairwise.iff hapart).mpr hpairs

theorem isRecord_of_forall_notMem (h : ∀ m ∈ members, ∃ name, unspell m.1 = some name ∧ name ∉ names) :
    IsRecord names members where
  texts m hm := (h m hm).imp fun _ => And.left
  apart := by
    refine List.pairwise_of_forall_mem_list fun m hm m' _ name hname hkey => ?_
    obtain ⟨name', hkey', hother⟩ := h m hm
    rw [Option.some.inj (hkey'.symm.trans hkey)] at hother
    exact absurd hname hother

theorem not_isRecord_of_twice {m m' : Bytes × Json} (h : [m, m'].Sublist members) (hname : name ∈ names)
    (hm : unspell m.1 = some name) (hm' : unspell m'.1 = some name) : ¬ IsRecord names members := fun hrecord =>
  (List.pairwise_cons.mp (hrecord.apart.sublist h)).1 m' List.mem_cons_self name hname hm hm'

/-- What an object gives under a name. -/
def Gives (members : List (Bytes × Json)) (name : String) (v : Json) : Prop :=
  ∃ key, (key, v) ∈ members ∧ unspell key = some name

theorem get?_eq_some_iff (h : fields? names (.object members) = some f) (hname : name ∈ names) :
    f.get? name = some v ↔ Gives members name v :=
  ⟨exists_member_of_get? h, fun ⟨_, hmem, hkey⟩ => get?_of_fields? h hmem hkey hname⟩

/-- The value of a field, unless it is `null`. -/
def Fields.given? (f : Fields) (name : String) : Option Json :=
  match f.get? name with
  | some .null => none
  | v => v

theorem Fields.given?_eq_some_iff : f.given? name = some v ↔ f.get? name = some v ∧ v ≠ .null := by
  rw [given?]
  split
  · rename_i hnull
    rw [hnull]
    exact ⟨nofun, fun ⟨h, hv⟩ => absurd (Option.some.inj h).symm hv⟩
  · rename_i hnull
    refine ⟨fun h => ⟨h, ?_⟩, And.left⟩
    rintro rfl
    exact hnull h

/-- A field that may be missing and may be `null` is read from the value that it is given. -/
theorem Fields.optional?_eq (f : Fields) (name : String) (value? : Json → Option α) :
    f.optional? name value? = match f.given? name with
      | none => some none
      | some v => (value? v).map some := by
  rw [optional?, given?]
  cases f.get? name with
  | none => rfl
  | some v => cases v <;> rfl

/-- Objects that give the same under the given names, `null` aside, if they are records of these at all. -/
structure SameRecord (names : List String) (members members' : List (Bytes × Json)) : Prop where
  isRecord : IsRecord names members ↔ IsRecord names members'
  gives : ∀ name ∈ names, ∀ v, v ≠ .null → (Gives members name v ↔ Gives members' name v)

theorem SameRecord.refl (names : List String) (members : List (Bytes × Json)) : SameRecord names members members :=
  ⟨Iff.rfl, fun _ _ _ _ => Iff.rfl⟩

theorem SameRecord.symm (h : SameRecord names members members') : SameRecord names members' members :=
  ⟨h.isRecord.symm, fun name hname v hv => (h.gives name hname v hv).symm⟩

theorem SameRecord.trans {members'' : List (Bytes × Json)} (h : SameRecord names members members')
    (h' : SameRecord names members' members'') : SameRecord names members members'' :=
  ⟨h.isRecord.trans h'.isRecord, fun name hname v hv => (h.gives name hname v hv).trans (h'.gives name hname v hv)⟩

theorem SameRecord.given?_eq (h : SameRecord names members members') {f' : Fields}
    (hf : fields? names (.object members) = some f) (hf' : fields? names (.object members') = some f')
    (hname : name ∈ names) : f.given? name = f'.given? name := by
  refine Option.ext fun v => ?_
  rw [Fields.given?_eq_some_iff, Fields.given?_eq_some_iff, get?_eq_some_iff hf hname, get?_eq_some_iff hf' hname]
  exact and_congr_left fun hv => h.gives name hname v hv

theorem SameRecord.of_perm (h : members.Perm members') : SameRecord names members members' where
  isRecord := by
    have hpairs := h.pairwise_iff (R := Apart names) Apart.symm
    exact ⟨fun hr => ⟨fun m hm => hr.texts m (h.mem_iff.mpr hm), hpairs.mp hr.apart⟩,
      fun hr => ⟨fun m hm => hr.texts m (h.mem_iff.mp hm), hpairs.mpr hr.apart⟩⟩
  gives name _ v _ := exists_congr fun key => and_congr_left fun _ => h.mem_iff

theorem isRecord_cons {m : Bytes × Json} : IsRecord names (m :: members) ↔
    (∃ name, unspell m.1 = some name) ∧ (∀ m' ∈ members, Apart names m m') ∧ IsRecord names members := by
  constructor
  · rintro ⟨htexts, hpairs⟩
    rw [List.forall_mem_cons] at htexts
    rw [List.pairwise_cons] at hpairs
    exact ⟨htexts.1, hpairs.1, htexts.2, hpairs.2⟩
  · rintro ⟨htext, hpair, htexts, hpairs⟩
    exact ⟨List.forall_mem_cons.mpr ⟨htext, htexts⟩, List.pairwise_cons.mpr ⟨hpair, hpairs⟩⟩

/-- A member in front gives nothing else under another name, and nothing but `null` if that is its value. -/
theorem gives_cons_of {w : Json} (h : unspell key ≠ some name ∨ v ≠ w) :
    Gives ((key, w) :: members) name v ↔ Gives members name v := by
  constructor
  · rintro ⟨key', hmem, hkey'⟩
    rcases List.mem_cons.mp hmem with hhead | hmem
    · obtain ⟨rfl, rfl⟩ := Prod.mk.inj hhead
      exact (h.elim (· hkey') (· rfl)).elim
    · exact ⟨key', hmem, hkey'⟩
  · rintro ⟨key', hmem, hkey'⟩
    exact ⟨key', List.mem_cons_of_mem _ hmem, hkey'⟩

/-- A member of another name makes no difference. -/
theorem SameRecord.cons_unknown (hkey : unspell key = some name) (hname : name ∉ names) :
    SameRecord names members ((key, v) :: members) where
  isRecord := by
    have hother : ∀ m ∈ members, Apart names (key, v) m := fun m _ known hknown hkey' => by
      rw [Option.some.inj (hkey.symm.trans hkey')] at hname
      exact absurd hknown hname
    rw [isRecord_cons]
    exact ⟨fun h => ⟨⟨name, hkey⟩, hother, h⟩, fun h => h.2.2⟩
  gives known hknown w _ := by
    refine (gives_cons_of (.inl fun hkey' => ?_)).symm
    rw [Option.some.inj (hkey.symm.trans hkey')] at hname
    exact hname hknown

/-- Neither does `null` under a name that no other member has. -/
theorem SameRecord.cons_null (hkey : unspell key = some name) (honce : ∀ m ∈ members, unspell m.1 ≠ some name) :
    SameRecord names members ((key, .null) :: members) where
  isRecord := by
    have hother : ∀ m ∈ members, Apart names (key, .null) m := fun m hm known _ hkey' hm' =>
      honce m hm (by rw [hm', ← hkey', hkey])
    rw [isRecord_cons]
    exact ⟨fun h => ⟨⟨name, hkey⟩, hother, h⟩, fun h => h.2.2⟩
  gives _ _ _ hw := (gives_cons_of (.inr hw)).symm

end DeviceTrust.Json
