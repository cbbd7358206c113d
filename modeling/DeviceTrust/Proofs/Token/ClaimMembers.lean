import DeviceTrust.Proofs.Json.Grammar
import DeviceTrust.Proofs.Json.Record
import DeviceTrust.Token.Claims
import Mathlib.Logic.Relation

/-!
# Claims are read from the known members alone

Each of the fourteen claims may be missing and may be `null`, and the reader looks for it by its name. So
members may change places, members of other names may come and go, and so may a `null` under a known
name. But all members need texts for names: one whose name is no text, say because half of a surrogate
pair is missing from it, spoils the claims, whatever its value.
-/

namespace DeviceTrust.Token

variable {v v' : Json} {f f' : Json.Fields} {members members' : List (Bytes × Json)} {document document' : Bytes}
  {name : String}

/-- A change to the members of an object that its claims do not show. -/
inductive Change : List (Bytes × Json) → List (Bytes × Json) → Prop where
  | reorder {members members' : List (Bytes × Json)} (h : members.Perm members') : Change members members'
  | unknown {members : List (Bytes × Json)} {key : Bytes} {v : Json} {name : String}
    (hkey : Json.unspell key = some name) (hname : name ∉ Claims.names) : Change members ((key, v) :: members)
  | null {members : List (Bytes × Json)} {key : Bytes} {name : String} (hkey : Json.unspell key = some name)
    (hname : name ∈ Claims.names) (honce : ∀ m ∈ members, Json.unspell m.1 ≠ some name) :
    Change members ((key, .null) :: members)

theorem Change.sameRecord (h : Change members members') : Json.SameRecord Claims.names members members' := by
  cases h with
  | reorder h => exact .of_perm h
  | unknown hkey hname => exact .cons_unknown hkey hname
  | null hkey _ honce => exact .cons_null hkey honce

theorem sameRecord_of_changes (h : Relation.EqvGen Change members members') :
    Json.SameRecord Claims.names members members' := by
  induction h with
  | rel _ _ h => exact h.sameRecord
  | refl members => exact .refl _ members
  | symm _ _ _ ih => exact ih.symm
  | trans _ _ _ _ _ ih ih' => exact ih.trans ih'

theorem Claims.ofJson?_congr (hf : Json.fields? names v = some f) (hf' : Json.fields? names v' = some f')
    (h : ∀ name ∈ names, f.given? name = f'.given? name) : ofJson? v = ofJson? v' := by
  have hfield {α : Type} (name : String) (hname : name ∈ names) (value? : Json → Option α) :
      f.optional? name value? = f'.optional? name value? := by
    rw [Json.Fields.optional?_eq, Json.Fields.optional?_eq, h name hname]
  rw [ofJson?, ofJson?, hf, hf', Option.bind_eq_bind, Option.bind_some, Option.bind_some]
  simp only [hfield "kid" (by decide), hfield "mac" (by decide), hfield "partner-id" (by decide),
    hfield "serial" (by decide), hfield "trust" (by decide), hfield "uuid" (by decide),
    hfield "capabilities" (by decide), hfield "aud" (by decide), hfield "exp" (by decide), hfield "iat" (by decide),
    hfield "nbf" (by decide), hfield "iss" (by decide), hfield "sub" (by decide), hfield "jti" (by decide)]

theorem Claims.ofJson?_eq_none (h : ¬ Json.IsRecord names members) : ofJson? (.object members) = none := by
  have hnone : Json.fields? names (.object members) = none :=
    Option.eq_none_iff_forall_ne_some.mpr fun f hf => h (Json.exists_fields?_iff.mp ⟨f, hf⟩)
  rw [ofJson?, hnone]
  rfl

/-- Objects that give the same under the known names are read as the same claims, or neither is read. -/
theorem Claims.ofJson?_eq_of_sameRecord (h : Json.SameRecord names members members') :
    ofJson? (.object members) = ofJson? (.object members') := by
  by_cases hrecord : Json.IsRecord names members
  · obtain ⟨f, hf⟩ := Json.exists_fields?_iff.mpr hrecord
    obtain ⟨f', hf'⟩ := Json.exists_fields?_iff.mpr (h.isRecord.mp hrecord)
    exact ofJson?_congr hf hf' fun name hname => h.given?_eq hf hf' hname
  · rw [ofJson?_eq_none hrecord, ofJson?_eq_none fun hrecord' => hrecord (h.isRecord.mpr hrecord')]

theorem Claims.read_eq (h : Json.DocumentText document v) : read document = ofJson? v := by
  rw [read, Json.read_eq_some_iff.mpr h, Option.bind_some]

/-- **Claims are read from the known members alone.** Two objects that differ in the order of their members, in
members of other names and in `null` under known names are read as the same claims, or neither is read;
and an object with two members of one known name is never read. -/
theorem Claims.read_from_known_members (hdocument : Json.DocumentText document (.object members))
    (hdocument' : Json.DocumentText document' (.object members')) :
    (Relation.EqvGen Change members members' → read document = read document') ∧
    ∀ name ∈ names, ∀ m m', [m, m'].Sublist members → Json.unspell m.1 = some name → Json.unspell m'.1 = some name →
      read document = none := by
  rw [read_eq hdocument, read_eq hdocument']
  refine ⟨fun h => ofJson?_eq_of_sameRecord (sameRecord_of_changes h), fun name hname m m' htwice hm hm' => ?_⟩
  exact ofJson?_eq_none (Json.not_isRecord_of_twice htwice hname hm hm')

/-- A `null` and a foreign member are taken away, and a second binding, under another spelling of its name, is not. -/
theorem Claims.read_from_known_members_of_changes :
    read (Bytes.ofText "\x7b\"mac\":\"a\",\"exp\":null,\"x\":[1]\x7d") =
        read (Bytes.ofText "\x7b \"mac\" : \"a\" \x7d") ∧
      read (Bytes.ofText "\x7b\"mac\":\"a\",\"\\u006dac\":null\x7d") = none := by
  let mac : Bytes × Json := (Bytes.ofText "mac", .string (Bytes.ofText "a"))
  let expiry : Bytes × Json := (Bytes.ofText "exp", .null)
  let foreign : Bytes × Json := (Bytes.ofText "x", .array [.number ⟨false, [1], none, none⟩])
  let again : Bytes × Json := (Bytes.ofText "\\u006dac", .null)
  have hfull : Json.DocumentText (Bytes.ofText "\x7b\"mac\":\"a\",\"exp\":null,\"x\":[1]\x7d")
    (.object [mac, expiry, foreign]) := Json.read_eq_some_iff.mp rfl
  have hbare : Json.DocumentText (Bytes.ofText "\x7b \"mac\" : \"a\" \x7d") (.object [mac]) :=
    Json.read_eq_some_iff.mp rfl
  have htwice : Json.DocumentText (Bytes.ofText "\x7b\"mac\":\"a\",\"\\u006dac\":null\x7d") (.object [mac, again]) :=
    Json.read_eq_some_iff.mp rfl
  have hmac : Json.unspell mac.1 = some "mac" := by decide +kernel
  have hexpiry : Change [mac] [expiry, mac] := by
    refine .null (show _ = some "exp" by decide +kernel) (by decide) fun m hm => ?_
    rw [List.mem_singleton.mp hm, hmac]
    decide
  have hforeign : Change [expiry, mac] [foreign, expiry, mac] :=
    .unknown (show _ = some "x" by decide +kernel) (by decide)
  have hreorder : Change [mac, expiry, foreign] [foreign, expiry, mac] := .reorder (List.reverse_perm _).symm
  constructor
  · exact (read_from_known_members hfull hbare).1 (.trans _ _ _ (.rel _ _ hreorder)
      (.symm _ _ (.trans _ _ _ (.rel _ _ hexpiry) (.rel _ _ hforeign))))
  · exact (read_from_known_members htwice htwice).2 "mac" (by decide) mac again (List.Sublist.refl _) hmac
      (by decide +kernel)

/-- A member whose name is half of a surrogate pair spoils the claims that are read without it. -/
theorem Claims.read_spoiled_by_unpaired_surrogate :
    let spoiling : Bytes := Bytes.ofText "\\ud800"
    let members : List (Bytes × Json) := [(Bytes.ofText "mac", .string (Bytes.ofText "a"))]
    Json.DocumentText (Bytes.ofText "\x7b\"mac\":\"a\"\x7d") (.object members) ∧
      Json.DocumentText (Bytes.ofText "\x7b\"\\ud800\":1,\"mac\":\"a\"\x7d")
        (.object ((spoiling, .number ⟨false, [1], none, none⟩) :: members)) ∧
      Json.unspell spoiling = none ∧
      read (Bytes.ofText "\x7b\"mac\":\"a\"\x7d") = some { mac := "a" } ∧
      read (Bytes.ofText "\x7b\"\\ud800\":1,\"mac\":\"a\"\x7d") = none := by
  refine ⟨Json.read_eq_some_iff.mp rfl, Json.read_eq_some_iff.mp rfl, ?_, ?_, ?_⟩
  all_goals decide +kernel

end DeviceTrust.Token
