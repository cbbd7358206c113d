import DeviceTrust.Proofs.Json.Grammar
import DeviceTrust.Proofs.Json.Record
import DeviceTrust.Proofs.Text.Trim
import DeviceTrust.Proofs.Token.Rejection

/-!
# Which tokens name a key

A token names a key in its first segment: base64 without padding, or with any number of padding signs
behind it, of a document that reads as a record of one field. The record is an object, whose other
members need not make sense beyond the names that they have, or an array of one item at most. The
reader finds the identifier there, or that there is none, just where the token is of this form, and it
looks at nothing else.
-/

namespace DeviceTrust.Token

open Json (DocumentText unspell)

variable {token header payload signature bare : String} {kid : Option String} {v : Json} {document : Bytes}
  {members : List (Bytes × Json)} {e : Error} {n : Nat}

/-- A value that is read as an identifier, or as none. -/
inductive KidValue : Json → Option String → Prop where
  | null : KidValue .null none
  | text {spelling : Bytes} {kid : String} (h : unspell spelling = some kid) : KidValue (.string spelling) (some kid)

/-- A member with a text for its name, but for another one than that of the field. -/
def Foreign (m : Bytes × Json) : Prop := ∃ name, unspell m.1 = some name ∧ name ≠ "kid"

/-- A header, and the identifier in it if there is one. -/
inductive HeaderRecord : Json → Option String → Prop where
  | unnamed {members : List (Bytes × Json)} (h : ∀ m ∈ members, Foreign m) : HeaderRecord (.object members) none
  | named {before after : List (Bytes × Json)} {key : Bytes} {v : Json} {kid : Option String}
    (hkey : unspell key = some "kid") (hothers : ∀ m ∈ before ++ after, Foreign m) (hvalue : KidValue v kid) :
    HeaderRecord (.object (before ++ (key, v) :: after)) kid
  | empty : HeaderRecord (.array []) none
  | placed {v : Json} {kid : Option String} (hvalue : KidValue v kid) : HeaderRecord (.array [v]) kid

def padding (n : Nat) : String := String.ofList (List.replicate n '=')

/-- A token of three segments whose first one is a header, and the identifier in it if there is one. -/
inductive NamesKid : String → Option String → Prop where
  | intro {header payload signature : String} {document : Bytes} {n : Nat} {v : Json} {kid : Option String}
    (hdots : ∀ segment ∈ [header, payload, signature], '.' ∉ segment.toList) (hfirst : header ≠ "")
    (hsecond : payload ≠ "") (hencoded : header = Base64.encode .url document ++ padding n)
    (hdocument : DocumentText document v) (hrecord : HeaderRecord v kid) :
    NamesKid (header ++ "." ++ payload ++ "." ++ signature) kid

theorem orNull?_text?_iff : Json.orNull? Json.text? v = some kid ↔ KidValue v kid := by
  constructor
  · intro h
    cases v with
    | null =>
      cases h
      exact .null
    | string spelling =>
      obtain ⟨name, hname, rfl⟩ := Option.map_eq_some_iff.mp h
      exact .text hname
    | _ => cases h
  · rintro (_ | h)
    · rfl
    · exact congrArg (Option.map some) h

theorem isRecord_of_foreign (h : ∀ m ∈ members, Foreign m) : Json.IsRecord ["kid"] members :=
  Json.isRecord_of_forall_notMem fun m hm => (h m hm).imp fun _ hname =>
    ⟨hname.1, fun hmem => hname.2 (List.mem_singleton.mp hmem)⟩

theorem not_gives_of_foreign (h : ∀ m ∈ members, Foreign m) : ¬ Json.Gives members "kid" v := by
  rintro ⟨key, hmem, hkey⟩
  obtain ⟨name, hname, hne⟩ := h _ hmem
  exact hne (Option.some.inj (hname.symm.trans hkey))

theorem isRecord_named_iff {before after : List (Bytes × Json)} {key : Bytes} (hkey : unspell key = some "kid") :
    Json.IsRecord ["kid"] (before ++ (key, v) :: after) ↔ ∀ m ∈ before ++ after, Foreign m := by
  rw [(Json.SameRecord.of_perm List.perm_middle).isRecord, Json.isRecord_cons]
  constructor
  · rintro ⟨-, hapart, hrest⟩ m hm
    obtain ⟨name, hname⟩ := hrest.texts m hm
    refine ⟨name, hname, ?_⟩
    rintro rfl
    exact hapart m hm "kid" List.mem_cons_self hkey hname
  · intro h
    refine ⟨⟨_, hkey⟩, fun m hm name hname _ hm' => ?_, isRecord_of_foreign h⟩
    obtain rfl := List.mem_singleton.mp hname
    exact not_gives_of_foreign (v := m.2) h ⟨m.1, hm, hm'⟩

theorem headerRecord_object_iff : (∃ f, Json.fields? ["kid"] (.object members) = some f ∧
    f.optional? "kid" Json.text? = some kid) ↔ HeaderRecord (.object members) kid := by
  have hfield : "kid" ∈ ["kid"] := List.mem_cons_self
  constructor
  · rintro ⟨f, hf, hkid⟩
    have hrecord : Json.IsRecord ["kid"] members := Json.exists_fields?_iff.mp ⟨f, hf⟩
    rw [Json.Fields.optional?] at hkid
    split at hkid
    · rename_i hnone
      cases hkid
      refine .unnamed fun m hm => ?_
      obtain ⟨name, hname⟩ := hrecord.texts m hm
      refine ⟨name, hname, ?_⟩
      rintro rfl
      have hget := (Json.get?_eq_some_iff hf hfield).mpr ⟨m.1, hm, hname⟩
      rw [hnone] at hget
      cases hget
    · rename_i v hsome
      obtain ⟨key, hmem, hkey⟩ := (Json.get?_eq_some_iff hf hfield).mp hsome
      obtain ⟨before, after, rfl⟩ := List.append_of_mem hmem
      exact .named hkey ((isRecord_named_iff hkey).mp hrecord) (orNull?_text?_iff.mp hkid)
  · intro h
    cases h with
    | unnamed h =>
      obtain ⟨f, hf⟩ := Json.exists_fields?_iff.mpr (isRecord_of_foreign h)
      have hget : f.get? "kid" = none := Option.eq_none_iff_forall_ne_some.mpr fun v hv =>
        not_gives_of_foreign h ((Json.get?_eq_some_iff hf hfield).mp hv)
      exact ⟨f, hf, by rw [Json.Fields.optional?, hget]⟩
    | named hkey hothers hvalue =>
      obtain ⟨f, hf⟩ := Json.exists_fields?_iff.mpr ((isRecord_named_iff hkey).mpr hothers)
      have hget := (Json.get?_eq_some_iff hf hfield).mpr
        ⟨_, List.mem_append_right _ List.mem_cons_self, hkey⟩
      exact ⟨f, hf, by rw [Json.Fields.optional?, hget]; exact orNull?_text?_iff.mpr hvalue⟩

theorem headerRecord_array_iff {items : List Json} : (∃ f, Json.fields? ["kid"] (.array items) = some f ∧
    f.optional? "kid" Json.text? = some kid) ↔ HeaderRecord (.array items) kid := by
  cases items with
  | nil =>
    constructor
    · rintro ⟨_, ⟨rfl⟩, h⟩
      cases h
      exact .empty
    · rintro ⟨⟩
      exact ⟨_, rfl, rfl⟩
  | cons v rest =>
    cases rest with
    | nil =>
      constructor
      · rintro ⟨_, ⟨rfl⟩, h⟩
        exact .placed (orNull?_text?_iff.mp h)
      · rintro (_ | _ | _ | hvalue)
        exact ⟨_, rfl, orNull?_text?_iff.mpr hvalue⟩
    | cons w rest =>
      refine ⟨?_, nofun⟩
      rintro ⟨f, hf, -⟩
      cases hf

/-- **The reader reads the headers of the grammar and nothing else.** -/
theorem readHeaderKid_eq_some_iff :
    readHeaderKid document = some kid ↔ ∃ v, DocumentText document v ∧ HeaderRecord v kid := by
  have hread : readHeaderKid document = some kid ↔ ∃ v, DocumentText document v ∧
      ∃ f, Json.fields? ["kid"] v = some f ∧ f.optional? "kid" Json.text? = some kid := by
    simp only [readHeaderKid, Option.bind_eq_bind, Option.bind_eq_some_iff, Json.read_eq_some_iff]
  rw [hread]
  refine exists_congr fun v => and_congr_right fun _ => ?_
  cases v with
  | object members => exact headerRecord_object_iff
  | array items => exact headerRecord_array_iff
  | _ =>
    refine ⟨?_, nofun⟩
    rintro ⟨f, hf, -⟩
    cases hf

theorem segments?_eq_ok_iff : segments? token = .ok (header, payload) ↔
    ∃ signature, token = header ++ "." ++ payload ++ "." ++ signature ∧
      (∀ segment ∈ [header, payload, signature], '.' ∉ segment.toList) ∧ header ≠ "" ∧ payload ≠ "" := by
  constructor
  · intro h
    unfold segments? at h
    split at h
    · rename_i first second third hsplit
      split at h
      · cases h
      · rename_i hne
        cases h
        rw [not_or, String.isEmpty_iff, String.isEmpty_iff] at hne
        refine ⟨third, ?_, fun segment hsegment => Text.notMem_of_mem_split (hsplit ▸ hsegment), hne⟩
        rw [← String.toList_inj, (Text.split_eq_three hsplit).1]
        simp
    · cases h
  · rintro ⟨signature, rfl, hdots, hfirst, hsecond⟩
    simp only [List.forall_mem_cons] at hdots
    refine segments_append hdots.1 hdots.2.1 hdots.2.2.1 ?_ ?_
    · exact Bool.eq_false_iff.mpr fun h => hfirst (String.isEmpty_iff.mp h)
    · exact Bool.eq_false_iff.mpr fun h => hsecond (String.isEmpty_iff.mp h)

theorem readPart_padding {α : Type} (part : Part) (read : Bytes → Option α) (bare : String) (n : Nat) :
    readPart part read (bare ++ padding n) = readPart part read bare := by
  have hdrop : Text.dropWhileEnd (· == '=') (bare.toList ++ List.replicate n '=') =
      Text.dropWhileEnd (· == '=') bare.toList :=
    Text.dropWhileEnd_append fun c hc => beq_iff_eq.mpr (List.eq_of_mem_replicate hc)
  rw [readPart, readPart, padding, String.toList_append, String.toList_ofList, hdrop]

/-- A segment is read as what its symbols stand for, with any number of padding signs behind them. -/
theorem readPart_eq_ok_iff {α : Type} {part : Part} {read : Bytes → Option α} {segment : String} {a : α} :
    readPart part read segment = .ok a ↔
      ∃ document n, segment = Base64.encode .url document ++ padding n ∧ read document = some a := by
  constructor
  · intro h
    unfold readPart at h
    simp only at h
    split at h
    · cases h
    · rename_i document hdecode
      split at h
      · rename_i hread
        cases h
        obtain ⟨n, hn⟩ := Text.exists_dropped '=' segment.toList
        refine ⟨document, n, ?_, hread⟩
        rw [← Base64.decode_eq_ok_iff.mp hdecode, ← String.toList_inj, String.toList_append, padding,
          String.toList_ofList, String.toList_ofList, ← hn]
      · cases h
  · rintro ⟨document, n, rfl, hread⟩
    rw [readPart_padding]
    exact readPart_eq_ok (by rw [decodeSegment, Base64.decode_encode]) hread

theorem namesKid_iff : NamesKid token kid ↔
    ∃ header payload, segments? token = .ok (header, payload) ∧ readPart .header readHeaderKid header = .ok kid := by
  constructor
  · rintro ⟨hdots, hfirst, hsecond, hencoded, hdocument, hrecord⟩
    exact ⟨_, _, segments?_eq_ok_iff.mpr ⟨_, rfl, hdots, hfirst, hsecond⟩,
      readPart_eq_ok_iff.mpr ⟨_, _, hencoded, readHeaderKid_eq_some_iff.mpr ⟨_, hdocument, hrecord⟩⟩⟩
  · rintro ⟨header, payload, hsegments, hpart⟩
    obtain ⟨signature, rfl, hdots, hfirst, hsecond⟩ := segments?_eq_ok_iff.mp hsegments
    obtain ⟨document, n, hencoded, hread⟩ := readPart_eq_ok_iff.mp hpart
    obtain ⟨v, hdocument, hrecord⟩ := readHeaderKid_eq_some_iff.mp hread
    exact .intro hdots hfirst hsecond hencoded hdocument hrecord

/-- The answer to the identifier in a header. -/
def kidAnswer : Option String → Except Error String
  | some kid => if kid.isEmpty then .error .missingKid else .ok kid
  | none => .error .missingKid

theorem kidAnswer_eq_ok_iff {k : String} : kidAnswer kid = .ok k ↔ kid = some k ∧ k ≠ "" := by
  cases kid with
  | none => exact ⟨nofun, fun h => nomatch h.1⟩
  | some name =>
    rw [kidAnswer]
    split
    · rename_i hempty
      refine ⟨nofun, ?_⟩
      rintro ⟨⟨rfl⟩, hne⟩
      exact absurd (String.isEmpty_iff.mp hempty) hne
    · rename_i hne
      rw [String.isEmpty_iff] at hne
      constructor
      · rintro ⟨rfl⟩
        exact ⟨rfl, hne⟩
      · rintro ⟨⟨rfl⟩, -⟩
        rfl

theorem kidAnswer_eq_error_iff : kidAnswer kid = .error e ↔ e = .missingKid ∧ (kid = none ∨ kid = some "") := by
  cases kid with
  | none =>
    constructor
    · rintro ⟨rfl⟩
      exact ⟨rfl, .inl rfl⟩
    · rintro ⟨rfl, -⟩
      rfl
  | some name =>
    rw [kidAnswer]
    split
    · rename_i hempty
      obtain rfl := String.isEmpty_iff.mp hempty
      constructor
      · rintro ⟨rfl⟩
        exact ⟨rfl, .inr rfl⟩
      · rintro ⟨rfl, -⟩
        rfl
    · rename_i hne
      refine ⟨nofun, ?_⟩
      rintro ⟨-, h | h⟩
      · cases h
      · exact absurd (String.isEmpty_iff.mpr (Option.some.inj h)) hne

theorem parseKid_eq (token : String) : parseKid token = segments? token >>= fun parts =>
    readPart .header readHeaderKid parts.1 >>= kidAnswer := by
  refine congrArg (segments? token >>= ·) (funext fun parts => congrArg (_ >>= ·) (funext fun kid => ?_))
  cases kid <;> rfl

theorem parseKid_of_namesKid (h : NamesKid token kid) : parseKid token = kidAnswer kid := by
  obtain ⟨header, payload, hsegments, hpart⟩ := namesKid_iff.mp h
  rw [parseKid_eq, hsegments, ok_bind, hpart, ok_bind]

theorem parseKid_of_not_namesKid (h : ∀ kid, ¬ NamesKid token kid) : ∃ m, parseKid token = .error (.malformed m) := by
  rw [parseKid_eq]
  cases hsegments : segments? token with
  | error e =>
    obtain rfl := segments_error hsegments
    exact ⟨_, rfl⟩
  | ok parts =>
    rw [ok_bind]
    cases hpart : readPart .header readHeaderKid parts.1 with
    | error e =>
      obtain ⟨m, rfl⟩ := readPart_error hpart
      exact ⟨m, rfl⟩
    | ok kid => exact absurd (namesKid_iff.mpr ⟨_, _, hsegments, hpart⟩) (h kid)

theorem parseKid_cases (token : String) : (∃ kid, NamesKid token kid ∧ parseKid token = kidAnswer kid) ∨
    (∀ kid, ¬ NamesKid token kid) ∧ ∃ m, parseKid token = .error (.malformed m) := by
  by_cases h : ∃ kid, NamesKid token kid
  · obtain ⟨kid, h⟩ := h
    exact .inl ⟨kid, h, parseKid_of_namesKid h⟩
  · rw [not_exists] at h
    exact .inr ⟨h, parseKid_of_not_namesKid h⟩

/-- Neither the payload nor the signature nor the padding of the header has a part in the answer. -/
theorem parseKid_padded (hdots : ∀ segment ∈ [bare, payload, signature], '.' ∉ segment.toList)
    (hfirst : bare ++ padding n ≠ "") (hsecond : payload ≠ "") :
    parseKid (bare ++ padding n ++ "." ++ payload ++ "." ++ signature) =
      readPart .header readHeaderKid bare >>= kidAnswer := by
  have hpadded : '.' ∉ (bare ++ padding n).toList := by
    rw [String.toList_append, padding, String.toList_ofList, List.mem_append, not_or]
    refine ⟨hdots bare List.mem_cons_self, fun h => ?_⟩
    cases List.eq_of_mem_replicate h
  have hsegments : segments? (bare ++ padding n ++ "." ++ payload ++ "." ++ signature) =
      .ok (bare ++ padding n, payload) := by
    refine segments?_eq_ok_iff.mpr ⟨signature, rfl, ?_, hfirst, hsecond⟩
    exact List.forall_mem_cons.mpr ⟨hpadded, (List.forall_mem_cons.mp hdots).2⟩
  rw [parseKid_eq, hsegments, ok_bind, readPart_padding]

/-- **A token names a key just where its header does.** An identifier is found in the tokens of the grammar that
have one and is missing from those that have none or the empty one, and every other token is malformed. What
the second and the third segment are does not matter, as long as the second is not empty, and neither does
the number of padding signs behind the first. -/
theorem parseKid_follows_grammar (token : String) :
    (∀ k, parseKid token = .ok k ↔ NamesKid token (some k) ∧ k ≠ "") ∧
    (parseKid token = .error .missingKid ↔ NamesKid token none ∨ NamesKid token (some "")) ∧
    ((∃ m, parseKid token = .error (.malformed m)) ↔ ∀ kid, ¬ NamesKid token kid) ∧
    (∀ e, parseKid token = .error e → e = .missingKid ∨ ∃ m, e = .malformed m) ∧
    ∀ (bare payload payload' signature signature' : String) (n n' : Nat),
      (∀ segment ∈ [bare, payload, payload', signature, signature'], '.' ∉ segment.toList) →
      bare ++ padding n ≠ "" → bare ++ padding n' ≠ "" → payload ≠ "" → payload' ≠ "" →
      parseKid (bare ++ padding n ++ "." ++ payload ++ "." ++ signature) =
        parseKid (bare ++ padding n' ++ "." ++ payload' ++ "." ++ signature') := by
  refine ⟨fun k => ⟨fun h => ?_, fun h => ?_⟩, ⟨fun h => ?_, fun h => ?_⟩, ⟨?_, parseKid_of_not_namesKid⟩, ?_, ?_⟩
  · rcases parseKid_cases token with ⟨kid, hnames, hanswer⟩ | ⟨-, m, hmalformed⟩
    · obtain ⟨rfl, hne⟩ := kidAnswer_eq_ok_iff.mp (hanswer.symm.trans h)
      exact ⟨hnames, hne⟩
    · cases hmalformed.symm.trans h
  · rw [parseKid_of_namesKid h.1]
    exact kidAnswer_eq_ok_iff.mpr ⟨rfl, h.2⟩
  · rcases parseKid_cases token with ⟨kid, hnames, hanswer⟩ | ⟨-, m, hmalformed⟩
    · obtain ⟨-, rfl | rfl⟩ := kidAnswer_eq_error_iff.mp (hanswer.symm.trans h)
      · exact .inl hnames
      · exact .inr hnames
    · cases hmalformed.symm.trans h
  · rcases h with h | h
    · rw [parseKid_of_namesKid h]
      rfl
    · rw [parseKid_of_namesKid h]
      rfl
  · rintro ⟨m, hmalformed⟩ kid hnames
    obtain ⟨hmissing, -⟩ := kidAnswer_eq_error_iff.mp ((parseKid_of_namesKid hnames).symm.trans hmalformed)
    cases hmissing
  · intro e h
    rcases parseKid_cases token with ⟨kid, -, hanswer⟩ | ⟨-, m, hmalformed⟩
    · exact .inl (kidAnswer_eq_error_iff.mp (hanswer.symm.trans h)).1
    · cases hmalformed.symm.trans h
      exact .inr ⟨m, rfl⟩
  · intro bare payload payload' signature signature' n n' hdots hfirst hfirst' hsecond hsecond'
    simp only [List.forall_mem_cons] at hdots
    obtain ⟨hbare, hpayload, hpayload', hsignature, hsignature', -⟩ := hdots
    rw [parseKid_padded (by simpa using ⟨hbare, hpayload, hsignature⟩) hfirst hsecond,
      parseKid_padded (by simpa using ⟨hbare, hpayload', hsignature'⟩) hfirst' hsecond']

/-- Padding signs, a payload that is nothing and a signature of any kind do not keep a key from being named. -/
theorem parseKid_follows_grammar_despite_padding :
    parseKid "eyJraWQiOiJrIn0===.?." = .ok "k" ∧ parseKid "eyJraWQiOiJrIn0=.e30.=" = .ok "k" := by
  let document : Bytes := Bytes.ofText "\x7b\"kid\":\"k\"\x7d"
  let v : Json := .object ([] ++ (Bytes.ofText "kid", .string (Bytes.ofText "k")) :: [])
  have hdocument : DocumentText document v := Json.read_eq_some_iff.mp rfl
  have hrecord : HeaderRecord v (some "k") := .named (by decide +kernel) nofun (.text (by decide +kernel))
  have hencoded : "eyJraWQiOiJrIn0===" = Base64.encode .url document ++ padding 3 := by decide +kernel
  have hnames : NamesKid ("eyJraWQiOiJrIn0===" ++ "." ++ "?" ++ "." ++ "") (some "k") :=
    .intro (by decide) (by decide) (by decide) hencoded hdocument hrecord
  have hok : parseKid "eyJraWQiOiJrIn0===.?." = .ok "k" :=
    ((parseKid_follows_grammar "eyJraWQiOiJrIn0===.?.").1 "k").mpr ⟨hnames, by decide⟩
  have hsame := (parseKid_follows_grammar "").2.2.2.2 "eyJraWQiOiJrIn0" "?" "e30" "" "=" 3 1 (by decide) (by decide)
    (by decide) (by decide) (by decide)
  exact ⟨hok, hsame.symm.trans hok⟩

/-- A member whose name is half of a surrogate pair spoils a header, whatever else is in it. -/
theorem parseKid_spoiled_by_unpaired_surrogate :
    let spoiling : Bytes := Bytes.ofText "\\ud800"
    let document : Bytes := Bytes.ofText "\x7b\"\\ud800\":1,\"kid\":\"k\"\x7d"
    let members : List (Bytes × Json) :=
      [(spoiling, .number ⟨false, [1], none, none⟩), (Bytes.ofText "kid", .string (Bytes.ofText "k"))]
    DocumentText document (.object members) ∧ unspell spoiling = none ∧ unspell (Bytes.ofText "kid") = some "kid" ∧
      KidValue (.string (Bytes.ofText "k")) (some "k") ∧
      parseKid (Base64.encode .url document ++ "." ++ "e30" ++ "." ++ "") =
        .error (.malformed (.document .header)) := by
  refine ⟨Json.read_eq_some_iff.mp rfl, ?_, ?_, .text ?_, ?_⟩
  all_goals decide +kernel

end DeviceTrust.Token
