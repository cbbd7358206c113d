import DeviceTrust.KeySet.Basic
import DeviceTrust.Proofs.Named
import DeviceTrust.Proofs.Text.Order

/-!
# The keys of a list of entries

A key set takes a key from every entry that offers one under an identifier, and a later offer under the same
identifier replaces an earlier one. An entry that offers nothing takes nothing away either. Whatever is inserted
afterwards, the identifiers stay in the order of their bytes and occur once, so that all ways to ask whether an
identifier has a key agree.
-/

namespace DeviceTrust

/-- A key set takes the key of an entry under its identifier if it has both and the identifier is not empty. -/
structure Jwk.Offers (j : Jwk) (kid : String) (key : VerificationKey) : Prop where
  named : j.kid = some kid
  filled : kid ≠ ""
  decoded : j.key? = some key

namespace KeySet

variable {entries entries' : List Jwk} {j : Jwk} {s : KeySet} {kid : String} {key : VerificationKey}

/-- Of the entries with an offer under an identifier, the last one offers this key. -/
def LastOffer (entries : List Jwk) (kid : String) (key : VerificationKey) : Prop :=
  ∃ before j after, entries = before ++ j :: after ∧ j.Offers kid key ∧ ∀ u ∈ after, ∀ key', ¬ u.Offers kid key'

def ofJwks (entries : List Jwk) : Except Error KeySet :=
  if (ofEntries entries).isEmpty then .error (.document .unusable) else .ok (ofEntries entries)

theorem ofDocument_eq (document : Bytes) : ofDocument document =
    match (Json.read document).bind Jwk.documentEntries? with
    | none => .error (.document .unreadable)
    | some entries => ofJwks entries := rfl

theorem ofJwks_eq_ok_iff : ofJwks entries = .ok s ↔ (ofEntries entries).isEmpty = false ∧ s = ofEntries entries := by
  rw [ofJwks]
  cases (ofEntries entries).isEmpty with
  | true => simp
  | false => simp [eq_comm]

theorem usable?_eq_some_iff : usable? j = some (kid, key) ↔ j.Offers kid key := by
  constructor
  · intro h
    obtain ⟨name, hname, h⟩ := Option.bind_eq_some_iff.mp h
    by_cases hempty : name.isEmpty = true
    · rw [if_pos hempty] at h
      cases h
    · rw [if_neg hempty] at h
      obtain ⟨k, hkey, ⟨⟩⟩ := Option.map_eq_some_iff.mp h
      exact ⟨hname, fun heq => hempty (String.isEmpty_iff.mpr heq), hkey⟩
  · rintro ⟨hname, hfilled, hkey⟩
    simp [usable?, hname, hfilled, hkey]

theorem ofEntries_eq (entries : List Jwk) : ofEntries entries = ⟨Named.ofList (entries.filterMap usable?)⟩ :=
  List.foldl_hom KeySet.mk fun _ _ => rfl

theorem isEmpty_ofEntries_iff :
    (ofEntries entries).isEmpty = true ↔ ∀ j ∈ entries, ∀ kid key, ¬ j.Offers kid key := by
  rw [ofEntries_eq, isEmpty, List.isEmpty_iff, Named.ofList_eq_nil_iff, List.filterMap_eq_nil_iff]
  refine forall₂_congr fun j _ => ?_
  rw [Option.eq_none_iff_forall_ne_some, Prod.forall]
  simp only [ne_eq, usable?_eq_some_iff]

/-- The key that an entry offers under an identifier. -/
def offered? (kid : String) (j : Jwk) : Option VerificationKey :=
  (usable? j).bind fun (name, key) => if kid == name then some key else none

theorem offered?_eq_some_iff : offered? kid j = some key ↔ j.Offers kid key := by
  rw [offered?, Option.bind_eq_some_iff, ← usable?_eq_some_iff]
  constructor
  · rintro ⟨⟨name, k⟩, hj, hfound⟩
    obtain ⟨hname, ⟨⟩⟩ := Option.ite_none_right_eq_some.mp hfound
    rwa [beq_iff_eq.mp hname]
  · intro hj
    exact ⟨_, hj, if_pos (beq_self_eq_true kid)⟩

theorem offered?_eq_none_iff : offered? kid j = none ↔ ∀ key, ¬ j.Offers kid key := by
  rw [Option.eq_none_iff_forall_ne_some]
  simp only [ne_eq, offered?_eq_some_iff]

theorem get?_ofEntries (entries : List Jwk) (kid : String) :
    (ofEntries entries).get? kid = entries.reverse.findSome? (offered? kid) := by
  rw [ofEntries_eq, get?, Named.lookup_ofList, ← List.filterMap_reverse, List.lookup_eq_findSome?,
    ← List.head?_filterMap, List.filterMap_filterMap, List.head?_filterMap]
  rfl

/-- **A key set holds the last offer under each identifier.** -/
theorem get?_ofEntries_eq_some_iff : (ofEntries entries).get? kid = some key ↔ LastOffer entries kid key := by
  rw [get?_ofEntries, findSome?_reverse_eq_some_iff, LastOffer]
  simp only [offered?_eq_some_iff, offered?_eq_none_iff]

/-- Entries of which no two make an offer under one identifier may stand in any order. -/
theorem ofEntries_perm (hperm : entries'.Perm entries)
    (hapart : entries.Pairwise fun a b => ∀ kid key key', a.Offers kid key → ¬ b.Offers kid key') :
    ofEntries entries' = ofEntries entries := by
  have hnames : ((entries.filterMap usable?).map Prod.fst).Nodup := by
    rw [List.Nodup, List.pairwise_map, List.pairwise_filterMap]
    refine hapart.imp fun {a b} hab => ?_
    rintro ⟨kid, key⟩ ha ⟨kid', key'⟩ hb (rfl : kid = kid')
    exact hab kid key key' (usable?_eq_some_iff.mp ha) (usable?_eq_some_iff.mp hb)
  rw [ofEntries_eq, ofEntries_eq, Named.ofList_perm (hperm.filterMap _) hnames]

/-- A key set comes out of entries or has no keys at first, and gets others one by one. -/
inductive Built : KeySet → Prop where
  | empty : Built empty
  | ofJwks {entries : List Jwk} {s : KeySet} (h : ofJwks entries = .ok s) : Built s
  | insert {s : KeySet} (h : Built s) (kid : String) (key : VerificationKey) : Built (s.insert kid key)

theorem Built.ascending (h : Built s) : Named.Ascending s.entries := by
  induction h with
  | empty => exact List.Pairwise.nil
  | ofJwks h =>
    obtain ⟨-, rfl⟩ := ofJwks_eq_ok_iff.mp h
    rw [ofEntries_eq]
    exact Named.ascending_ofList _
  | insert _ kid key ih => exact Named.ascending_insert ih

theorem isSome_get?_iff (s : KeySet) (kid : String) : (s.get? kid).isSome = true ↔ kid ∈ s.kids :=
  Named.isSome_lookup_iff

theorem get?_insert (s : KeySet) (kid : String) (key : VerificationKey) (kid' : String) :
    (s.insert kid key).get? kid' = if kid' = kid then some key else s.get? kid' :=
  Named.lookup_insert kid key s.entries kid'

/-- **A key set keeps exactly the last usable key under each identifier.** A document that can be read is as good as
the list of its entries, and a list is refused just where none of them offers a key. Otherwise the keys are the last
offers. However a key set came about, its identifiers are in strictly ascending order of their bytes, and its size,
its emptiness and both ways to ask for an identifier agree with them; inserting changes what is found under one
identifier. Where no two entries make an offer under one identifier, their order is of no account. -/
theorem last_usable_entry_kept :
    (∀ document, ofDocument document =
      match (Json.read document).bind Jwk.documentEntries? with
      | none => .error (.document .unreadable)
      | some entries => ofJwks entries) ∧
    (∀ entries, (ofJwks entries = .error (.document .unusable) ↔ ∀ j ∈ entries, ∀ kid key, ¬ j.Offers kid key) ∧
      (∀ e, ofJwks entries = .error e → e = .document .unusable) ∧
      ∀ s, ofJwks entries = .ok s → ∀ kid key, s.get? kid = some key ↔ LastOffer entries kid key) ∧
    (∀ s, Built s →
      (s.kids.Pairwise fun a b => Bytes.ofText a < Bytes.ofText b) ∧ s.size = s.kids.length ∧
      (s.isEmpty = true ↔ s.kids = []) ∧
      ∀ kid, (s.contains kid = true ↔ kid ∈ s.kids) ∧ ((s.get? kid).isSome = true ↔ kid ∈ s.kids) ∧
        ∀ key kid', (s.insert kid key).get? kid' = if kid' = kid then some key else s.get? kid') ∧
    ∀ entries entries', entries'.Perm entries →
      (entries.Pairwise fun a b => ∀ kid key key', a.Offers kid key → ¬ b.Offers kid key') →
      ofJwks entries' = ofJwks entries := by
  refine ⟨ofDocument_eq, fun entries => ⟨?_, ?_, ?_⟩, fun s hs => ⟨?_, ?_, ?_, fun kid => ?_⟩, ?_⟩
  · rw [← isEmpty_ofEntries_iff, ofJwks]
    cases (ofEntries entries).isEmpty <;> simp
  · intro e h
    rw [ofJwks] at h
    split at h
    · exact (Except.error.inj h).symm
    · cases h
  · intro s h kid key
    obtain ⟨-, rfl⟩ := ofJwks_eq_ok_iff.mp h
    exact get?_ofEntries_eq_some_iff
  · exact hs.ascending.imp Bytes.ofText_lt_iff.mpr
  · exact (List.length_map _).symm
  · rw [isEmpty, List.isEmpty_iff, kids, List.map_eq_nil_iff]
  · exact ⟨isSome_get?_iff s kid, isSome_get?_iff s kid, get?_insert s kid⟩
  · intro entries entries' hperm hapart
    rw [ofJwks, ofJwks, ofEntries_perm hperm hapart]

/-- Two secrets under one identifier and then an entry under it that holds no key, and two more that offer nothing. -/
def revisedEntries : List Jwk :=
  [⟨some "é", .octets "AQAB"⟩, ⟨some "a", .octets "AQAB"⟩, ⟨none, .octets "AQAB"⟩, ⟨some "", .octets "AQAB"⟩,
    ⟨some "a", .octets "AQ"⟩, ⟨some "a", .octets "!"⟩]

/-- The later secret is found in spite of what follows it, and in a set that gets another key, too. -/
theorem last_usable_entry_kept_before_broken_one :
    ofJwks revisedEntries = .ok ⟨[("a", .secret [1]), ("é", .secret [1, 0, 1])]⟩ ∧
      LastOffer revisedEntries "a" (.secret [1]) ∧
      (ofEntries revisedEntries |>.insert "z" (.edwards [])).kids.Pairwise
        (fun a b => Bytes.ofText a < Bytes.ofText b) ∧
      ofJwks [⟨some "a", .octets "AQ"⟩, ⟨some "é", .octets "AQAB"⟩] =
        ofJwks [⟨some "é", .octets "AQAB"⟩, ⟨some "a", .octets "AQ"⟩] := by
  have hok : ofJwks revisedEntries = .ok ⟨[("a", .secret [1]), ("é", .secret [1, 0, 1])]⟩ := by decide +kernel
  obtain ⟨-, hentries, hbuilt, hperm⟩ := last_usable_entry_kept
  obtain ⟨-, -, hlast⟩ := hentries revisedEntries
  refine ⟨hok, (hlast _ hok "a" (.secret [1])).mp rfl, ?_, ?_⟩
  · obtain ⟨-, hset⟩ := ofJwks_eq_ok_iff.mp hok
    rw [← hset]
    exact (hbuilt _ ((Built.ofJwks hok).insert "z" (.edwards []))).1
  · refine hperm _ _ (List.Perm.swap _ _ _) (List.pairwise_pair.mpr ?_)
    rintro kid key key' ⟨hfirst, -, -⟩ ⟨hsecond, -, -⟩
    exact absurd (hfirst.trans hsecond.symm) (by decide)

end KeySet

end DeviceTrust
