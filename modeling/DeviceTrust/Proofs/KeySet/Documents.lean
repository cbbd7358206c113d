import DeviceTrust.KeySet.Basic
import DeviceTrust.Proofs.Json.Fields

/-!
# Entries that a key set document could do without

A document is read in two steps: all of its list of keys into entries, and the usable entries into a key
set. The second step passes over an entry without an identifier, or whose key is no base64. The first one
passes over nothing: one value in the list that cannot be read as an entry, for want of a known kind or of
a member that its kind needs, and the document is refused with all its keys.
-/

namespace DeviceTrust

variable {items : List Json} {entries : List Jwk} {members : List (Bytes × Json)} {kind : String} {j : Jwk}
  {s : KeySet} {document : Bytes}

namespace Jwk

/-- What surrounds the list of keys of a document. -/
inductive Frame where
  | object (before : List (Bytes × Json)) (key : Bytes) (after : List (Bytes × Json))
    (hkey : Json.unspell key = some "keys")
  | array

/-- The document with a list of keys. -/
def Frame.fill : Frame → List Json → Json
  | object before key after _, items => .object (before ++ (key, .array items) :: after)
  | array, items => .array [.array items]

def ofItem? : Json → Option Jwk := ofJson? (depthLimit - 2)

/-- A document that can be read with one list is read with any other list that can. -/
theorem documentEntries?_fill {f : Frame} (h : documentEntries? (f.fill items) = some entries)
    (items' : List Json) : documentEntries? (f.fill items') = items'.mapM ofItem? := by
  cases f with
  | array => rfl
  | object before key after hkey =>
    obtain ⟨_, hfields, -⟩ := Option.bind_eq_some_iff.mp h
    obtain ⟨known, hknown, -⟩ := Option.map_eq_some_iff.mp hfields
    obtain ⟨l, r, rfl, hl, hreplace⟩ := Json.membersNamed?_append_cons hknown hkey (List.mem_singleton_self _)
    have hfields' : Json.fields? ["keys"] (Frame.fill (.object before key after hkey) items') =
        some ⟨false, l ++ ("keys", .array items') :: r⟩ := by
      rw [Frame.fill, Json.fields?, hreplace]
      rfl
    rw [documentEntries?, hfields']
    simp only [Option.bind_eq_bind, Option.bind_some, Json.Fields.required?, Json.Fields.get?,
      Json.lookup_append_cons hl]
    rfl

theorem eq_array_of_listOf? {α : Type} {item? : Json → Option α} {v : Json} {result : List α}
    (h : Json.listOf? item? v = some result) : ∃ items, v = .array items := by
  cases v with
  | array items => exact ⟨items, rfl⟩
  | _ => cases h

theorem exists_frame {v : Json} (h : documentEntries? v = some entries) :
    ∃ (f : Frame) (items : List Json), v = f.fill items := by
  obtain ⟨f, hfields, h⟩ := Option.bind_eq_some_iff.mp h
  obtain ⟨list, hget, hlist⟩ := Option.bind_eq_some_iff.mp h
  obtain ⟨items, rfl⟩ := eq_array_of_listOf? hlist
  cases v with
  | object members =>
    obtain ⟨key, hmember, hkey⟩ := Json.exists_member_of_get? hfields hget
    obtain ⟨before, after, rfl⟩ := List.append_of_mem hmember
    exact ⟨.object before key after hkey, items, rfl⟩
  | array values =>
    obtain ⟨hlength, hvalues⟩ := Option.ite_none_right_eq_some.mp hfields
    cases hvalues
    match values with
    | [] => cases hget
    | [value] =>
      obtain rfl : value = .array items := by simpa [Json.Fields.get?] using hget
      exact ⟨.array, items, rfl⟩
    | _ :: _ :: _ => simp at hlength
  | _ => cases hfields

/-- The members name a kind of key that is known. -/
def Announces (members : List (Bytes × Json)) (kind : String) : Prop :=
  ∃ m ∈ members, Json.unspell m.1 = some "kty" ∧ Json.choice? ["EC", "RSA", "oct", "OKP"] false m.2 = some kind

def keyNames : String → List String
  | "EC" => ["crv", "x", "y"]
  | "RSA" => ["n", "e"]
  | "oct" => ["k"]
  | _ => ["crv", "x"]

/-- Members that hold no key: the kind is unknown, or one of the members that it needs is missing. -/
inductive Keyless (members : List (Bytes × Json)) : Prop where
  | unknown (h : ∀ kind, ¬ Announces members kind) : Keyless members
  | missing {kind name : String} (hkind : Announces members kind) (hname : name ∈ keyNames kind)
    (h : ∀ m ∈ members, Json.unspell m.1 ≠ some name) : Keyless members

theorem isSome_of_required? {α : Type} {f : Json.Fields} {value? : Json → Option α} {a : α}
    (h : f.required? name value? = some a) : (f.get? name).isSome = true := by
  obtain ⟨v, hv, -⟩ := Option.bind_eq_some_iff.mp h
  rw [hv]
  rfl

theorem fields_of_parameters? {p : JwkParameters} (h : parameters? members = some p) :
    ∃ kind f, Announces members kind ∧ Json.fields? ("kty" :: keyNames kind) (.object members) = some f ∧
      ∀ name ∈ keyNames kind, (f.get? name).isSome = true := by
  obtain ⟨kind, hkind, h⟩ := Option.bind_eq_some_iff.mp h
  obtain ⟨m, hm, hread⟩ := List.exists_of_findSome?_eq_some hkind
  obtain ⟨hkty, hkind⟩ := Option.ite_none_right_eq_some.mp hread
  refine ⟨kind, ?_⟩
  simp only [Option.bind_eq_bind, Option.pure_def] at h
  -- by kind; the last case is any name but the first three, and asks for what an octet pair needs
  split at h
  · simp only [Option.bind_eq_some_iff] at h
    obtain ⟨f, hf, _, hcrv, x, hx, y, hy, -⟩ := h
    refine ⟨f, ⟨m, hm, hkty, hkind⟩, hf, ?_⟩
    simp [keyNames, isSome_of_required? hcrv, isSome_of_required? hx, isSome_of_required? hy]
  · simp only [Option.bind_eq_some_iff] at h
    obtain ⟨f, hf, n, hn, e, he, -⟩ := h
    refine ⟨f, ⟨m, hm, hkty, hkind⟩, hf, ?_⟩
    simp [keyNames, isSome_of_required? hn, isSome_of_required? he]
  · simp only [Option.bind_eq_some_iff] at h
    obtain ⟨f, hf, k, hk, -⟩ := h
    refine ⟨f, ⟨m, hm, hkty, hkind⟩, hf, ?_⟩
    simp [keyNames, isSome_of_required? hk]
  · have hnames : keyNames kind = ["crv", "x"] := by rw [keyNames] <;> assumption
    simp only [Option.bind_eq_some_iff] at h
    obtain ⟨f, hf, _, hcrv, x, hx, -⟩ := h
    refine ⟨f, ⟨m, hm, hkty, hkind⟩, hnames ▸ hf, ?_⟩
    simp [hnames, isSome_of_required? hcrv, isSome_of_required? hx]

theorem Announces.unique {names : List String} {f : Json.Fields} {kind' : String}
    (hfields : Json.fields? ("kty" :: names) (.object members) = some f) (h : Announces members kind)
    (h' : Announces members kind') : kind = kind' := by
  obtain ⟨m, hm, hkty, hkind⟩ := h
  obtain ⟨m', hm', hkty', hkind'⟩ := h'
  have hget := Json.get?_of_fields? hfields hm hkty List.mem_cons_self
  rw [Json.get?_of_fields? hfields hm' hkty' List.mem_cons_self, Option.some.injEq] at hget
  rw [hget, hkind] at hkind'
  exact Option.some.inj hkind'

theorem parameters?_of_keyless (h : Keyless members) : parameters? members = none := by
  refine Option.eq_none_iff_forall_ne_some.mpr fun p hp => ?_
  obtain ⟨kind, f, hkind, hfields, hnames⟩ := fields_of_parameters? hp
  cases h with
  | unknown h => exact h kind hkind
  | missing hkind' hname h =>
    obtain rfl := hkind.unique hfields hkind'
    obtain ⟨v, hget⟩ := Option.isSome_iff_exists.mp (hnames _ hname)
    obtain ⟨key, hmember, hkey⟩ := Json.exists_member_of_get? hfields hget
    exact h _ hmember hkey

theorem ofItem?_of_keyless (h : Keyless members) : ofItem? (.object members) = none := by
  simp [ofItem?, ofJson?, parameters?_of_keyless h]

end Jwk

namespace KeySet

/-- What an entry may lack: an identifier, or a key in base64. -/
theorem usable?_eq_none_iff : usable? j = none ↔ j.kid = none ∨ j.kid = some "" ∨ j.key? = none := by
  unfold usable?
  cases j.kid with
  | none => simp
  | some kid => by_cases hkid : kid = "" <;> simp [hkid]

theorem ofEntries_append_cons {before after : List Jwk} (h : usable? j = none) :
    ofEntries (before ++ j :: after) = ofEntries (before ++ after) := by
  rw [ofEntries, ofEntries, List.filterMap_append, List.filterMap_append, List.filterMap_cons_none h]

theorem ofDocument_of_read {v : Json} (h : Json.read document = some v) : ofDocument document =
    match Jwk.documentEntries? v with
    | none => .error (.document .unreadable)
    | some entries =>
      if (ofEntries entries).isEmpty then .error (.document .unusable) else .ok (ofEntries entries) := by
  rw [ofDocument, h]
  rfl

theorem documentEntries?_of_ofDocument (h : ofDocument document = .ok s) :
    ∃ v entries, Json.read document = some v ∧ Jwk.documentEntries? v = some entries ∧ s = ofEntries entries ∧
      s.isEmpty = false := by
  unfold ofDocument at h
  split at h
  · cases h
  · rename_i entries hentries
    obtain ⟨v, hread, hentries⟩ := Option.bind_eq_some_iff.mp hentries
    simp only at h
    split at h
    · cases h
    · rename_i hempty
      cases h
      exact ⟨v, entries, hread, hentries, rfl, Bool.eq_false_iff.mpr hempty⟩

/-- **A value put into the list of keys decides over all of it.** If it is read as an entry that lacks an
identifier or a key, the key set stays as it was. If it is read as no entry, as when it does not say of what
known kind it is or leaves out a member that its kind needs, the document is refused. -/
theorem passed_over_where_read (haccepted : ofDocument document = .ok s) :
    (∃ (f : Jwk.Frame) (items : List Json), Json.read document = some (f.fill items)) ∧
    ∀ (f : Jwk.Frame) (xs ys : List Json) (e : Json) (document' : Bytes),
      Json.read document = some (f.fill (xs ++ ys)) → Json.read document' = some (f.fill (xs ++ e :: ys)) →
      (∀ j, Jwk.ofItem? e = some j → j.kid = none ∨ j.kid = some "" ∨ j.key? = none →
        ofDocument document' = .ok s) ∧
      (Jwk.ofItem? e = none → ofDocument document' = .error (.document .unreadable)) ∧
      ∀ members, e = .object members → Jwk.Keyless members →
        ofDocument document' = .error (.document .unreadable) := by
  obtain ⟨v, entries, hread, hentries, rfl, hsome⟩ := documentEntries?_of_ofDocument haccepted
  constructor
  · obtain ⟨f, items, rfl⟩ := Jwk.exists_frame hentries
    exact ⟨f, items, hread⟩
  · intro f xs ys e document' hwithout hwith
    obtain rfl : v = f.fill (xs ++ ys) := Option.some.inj (hread.symm.trans hwithout)
    -- the list was read item by item, so the entries on both sides of the gap are known
    have hlist := Jwk.documentEntries?_fill hentries (xs ++ ys)
    rw [hentries, List.mapM_append] at hlist
    simp only [Option.bind_eq_bind, Option.pure_def] at hlist
    obtain ⟨before, hbefore, hlist⟩ := Option.bind_eq_some_iff.mp hlist.symm
    obtain ⟨after, hafter, ⟨⟩⟩ := Option.bind_eq_some_iff.mp hlist
    have hrefused (hnone : Jwk.ofItem? e = none) : ofDocument document' = .error (.document .unreadable) := by
      have hlist' : (xs ++ e :: ys).mapM Jwk.ofItem? = none := by
        simp [List.mapM_append, List.mapM_cons, hbefore, hnone]
      rw [ofDocument_of_read hwith, Jwk.documentEntries?_fill hentries, hlist']
    refine ⟨fun j hj hlacks => ?_, hrefused, ?_⟩
    · have hlist' : (xs ++ e :: ys).mapM Jwk.ofItem? = some (before ++ j :: after) := by
        simp [List.mapM_append, List.mapM_cons, hbefore, hj, hafter]
      rw [ofDocument_of_read hwith, Jwk.documentEntries?_fill hentries, hlist']
      simp only [ofEntries_append_cons (usable?_eq_none_iff.mpr hlacks), hsome]
      rfl
    · rintro members rfl hkeyless
      exact hrefused (Jwk.ofItem?_of_keyless hkeyless)

def published (items : List Json) : Bytes := Json.print (Json.record [("keys", .array items)])

def bareFrame : Jwk.Frame := .object [] (Json.spell "keys") [] (Json.unspell_spell "keys")

theorem read_published (h : ∀ v ∈ items, Json.Written v) :
    Json.read (published items) = some (bareFrame.fill items) := by
  have hwritten : Json.Written (Json.record [("keys", .array items)]) := by
    refine .record fun m hm => ?_
    obtain rfl := List.mem_singleton.mp hm
    exact .array h
  exact hwritten.read_print

def entry (members : List (String × String)) : Json :=
  Json.record (members.map fun (name, s) => (name, Json.text s))

theorem written_entry (members : List (String × String)) : Json.Written (entry members) := by
  refine .record fun m hm => ?_
  obtain ⟨_, -, rfl⟩ := List.mem_map.mp hm
  exact .text _

def secretEntry : Json := entry [("kty", "oct"), ("kid", "a"), ("k", "AQAB")]

def unnamedEntry : Json := entry [("kty", "oct"), ("k", "AQAB")]

def newerEntry : Json := entry [("kty", "AKP"), ("kid", "b"), ("pub", "AQAB")]

def secretSet : KeySet := ⟨[("a", .secret [1, 0, 1])]⟩

/-- The secret stays published next to one without an identifier, and not next to a key of a newer kind. -/
theorem passed_over_next_to_secret :
    ofDocument (published [unnamedEntry, secretEntry]) = .ok secretSet ∧
      ofDocument (published [newerEntry, secretEntry]) = .error (.document .unreadable) := by
  have haccepted : ofDocument (published [secretEntry]) = .ok secretSet := by decide +kernel
  obtain ⟨-, hinserted⟩ := passed_over_where_read haccepted
  have hnext (e : Json) (he : Json.Written e) := hinserted bareFrame [] [secretEntry] e (published [e, secretEntry])
    (read_published (by simp [secretEntry, written_entry])) (read_published (by simp [secretEntry, written_entry, he]))
  obtain ⟨hunnamed, -, -⟩ := hnext unnamedEntry (written_entry _)
  obtain ⟨-, hrefused, -⟩ := hnext newerEntry (written_entry _)
  exact ⟨hunnamed ⟨none, .octets "AQAB"⟩ rfl (.inl rfl), hrefused rfl⟩

/-- Not every entry without a usable key is passed over: one of a newer kind takes the secret with it. -/
theorem newer_kind_refuses_all :
    (∃ members, newerEntry = .object members ∧ Jwk.Keyless members) ∧
      ofDocument (published [secretEntry]) = .ok secretSet ∧
      Json.read (published [secretEntry]) = some (bareFrame.fill ([] ++ [secretEntry])) ∧
      Json.read (published [newerEntry, secretEntry]) = some (bareFrame.fill ([] ++ newerEntry :: [secretEntry])) ∧
      ofDocument (published [newerEntry, secretEntry]) = .error (.document .unreadable) := by
  refine ⟨⟨_, rfl, .unknown ?_⟩, by decide +kernel, rfl, rfl, by decide +kernel⟩
  rintro kind ⟨m, hm, hkty, hkind⟩
  simp only [List.map_cons, List.map_nil, List.mem_cons, List.not_mem_nil, or_false] at hm
  rcases hm with rfl | rfl | rfl
  · have hunknown : Json.choice? ["EC", "RSA", "oct", "OKP"] false (Json.text "AKP") = none := rfl
    cases hunknown.symm.trans hkind
  · exact absurd ((Json.unspell_spell "kid").symm.trans hkty) (by decide)
  · exact absurd ((Json.unspell_spell "pub").symm.trans hkty) (by decide)

end KeySet

end DeviceTrust
