import DeviceTrust.Proofs.Json.Fields
import DeviceTrust.Token.Claims

/-!
# Claims are read back

Claims are written as a record of at most fourteen members in a fixed order. Empty texts and absent
numbers and audiences are left out, and what is left out is read as empty or absent; the list of
capabilities is always there. An audience of one name is a text and any other a list, so the two
cannot be taken for each other. The times must fit the 64 signed bits that the reader has for them.
-/

namespace DeviceTrust.Token

variable {c : Claims} {name value : String} {t : Option Int}

def Claims.Timely (c : Claims) : Prop :=
  ∀ t ∈ [c.expiry, c.issuedAt, c.notBefore], ∀ n ∈ t, -(2 : Int) ^ 63 ≤ n ∧ n < (2 : Int) ^ 63

def nonEmpty? (s : String) : Option String := if s.isEmpty then none else some s

/-- The claims by name, each as written if it is. -/
def Claims.entries (c : Claims) : List (String × Option Json) :=
  let text (s : String) : Option Json := (nonEmpty? s).map Json.text
  let time (t : Option Int) : Option Json := t.map Json.integer
  [("kid", text c.kid), ("mac", text c.mac), ("partner-id", text c.partnerId), ("serial", text c.serial),
    ("trust", text c.trust), ("uuid", text c.uuid), ("capabilities", some (Json.texts c.capabilities)),
    ("aud", c.audience.map Audience.toJson), ("exp", time c.expiry), ("iat", time c.issuedAt),
    ("nbf", time c.notBefore), ("iss", text c.issuer), ("sub", text c.subject), ("jti", text c.tokenId)]

theorem Claims.textMember_eq (name value : String) :
    textMember name value = Json.present [(name, (nonEmpty? value).map Json.text)] := by
  rw [textMember, nonEmpty?]
  split <;> rfl

theorem Claims.timeMember_eq (name : String) (t : Option Int) :
    timeMember name t = Json.present [(name, t.map Json.integer)] := by
  cases t <;> rfl

theorem Claims.toJson_eq (c : Claims) : c.toJson = Json.record (Json.present c.entries) := by
  have happend (name : String) (v : Option Json) (e : String × Option Json) (es : List (String × Option Json)) :=
    Json.present_cons name v (e :: es)
  simp only [toJson, textMember_eq, timeMember_eq, entries, happend, List.append_assoc]
  cases c.audience <;> rfl

def Claims.fields (c : Claims) : Json.Fields := ⟨false, Json.present c.entries⟩

theorem Claims.names_nodup : names.Nodup := by decide

theorem Claims.fields?_toJson (c : Claims) : Json.fields? names c.toJson = some c.fields := by
  rw [toJson_eq]
  exact Json.fields?_present c.entries names_nodup

theorem Claims.get?_fields (c : Claims) (name : String) : c.fields.get? name = (c.entries.lookup name).join :=
  Json.lookup_present c.entries names_nodup

theorem Claims.readText (hget : c.fields.get? name = (nonEmpty? value).map Json.text) :
    (c.fields.optional? name Json.text?).map (·.getD "") = some value := by
  have hread : c.fields.optional? name Json.text? = some (nonEmpty? value) := by
    refine Json.optional?_of_get? Json.text (fun s _ => ?_) hget
    exact congrArg (Option.map some) (Json.text?_text s)
  rw [hread, nonEmpty?, Option.map_some]
  split
  · rename_i hempty
    rw [String.isEmpty_iff.mp hempty]
    rfl
  · rfl

theorem Claims.readTime (ht : ∀ n ∈ t, -(2 : Int) ^ 63 ≤ n ∧ n < (2 : Int) ^ 63)
    (hget : c.fields.get? name = t.map Json.integer) : c.fields.optional? name Json.int64? = some t := by
  refine Json.optional?_of_get? Json.integer (fun n hn => ?_) hget
  exact congrArg (Option.map some) (Json.int64?_integer (ht n hn).1 (ht n hn).2)

theorem Audience.ofJson?_toJson (a : Audience) : ofJson? a.toJson = some a := by
  cases a with
  | single name => exact congrArg (Option.map single) (Json.unspell_spell name)
  | many names => exact congrArg (Option.map many) (Json.listOf?_texts names)

theorem Claims.readCapabilities (c : Claims) :
    c.fields.optional? "capabilities" (Json.listOf? Json.text?) = some (some c.capabilities) := by
  refine Json.optional?_of_get? Json.texts (fun cs _ => ?_) (c.get?_fields _)
  exact congrArg (Option.map some) (Json.listOf?_texts cs)

theorem Claims.readAudience (c : Claims) : c.fields.optional? "aud" Audience.ofJson? = some c.audience := by
  refine Json.optional?_of_get? Audience.toJson (fun a _ => ?_) (c.get?_fields _)
  have hread := congrArg (Option.map some) (Audience.ofJson?_toJson a)
  cases a <;> exact hread

/-- **Claims are read back from what they are written as.** -/
theorem Claims.ofJson?_toJson (hc : c.Timely) : ofJson? c.toJson = some c := by
  have htext (name value : String) (h : (c.entries.lookup name).join = (nonEmpty? value).map Json.text) :
      (c.fields.optional? name Json.text?).map (·.getD "") = some value :=
    readText ((c.get?_fields name).trans h)
  have htime (name : String) (t : Option Int) (ht : t ∈ [c.expiry, c.issuedAt, c.notBefore])
      (h : (c.entries.lookup name).join = t.map Json.integer) : c.fields.optional? name Json.int64? = some t :=
    readTime (hc t ht) ((c.get?_fields name).trans h)
  rw [ofJson?, fields?_toJson, Option.bind_eq_bind, Option.bind_some]
  simp only [htext "kid" c.kid rfl, htext "mac" c.mac rfl, htext "partner-id" c.partnerId rfl,
    htext "serial" c.serial rfl, htext "trust" c.trust rfl, htext "uuid" c.uuid rfl, c.readCapabilities,
    c.readAudience, htime "exp" c.expiry (by simp) rfl, htime "iat" c.issuedAt (by simp) rfl,
    htime "nbf" c.notBefore (by simp) rfl, htext "iss" c.issuer rfl, htext "sub" c.subject rfl,
    htext "jti" c.tokenId rfl]
  rfl

theorem Claims.written_toJson (c : Claims) : Json.Written c.toJson := by
  have htext (s : String) : ∀ v ∈ (nonEmpty? s).map Json.text, Json.Written v := by
    intro v hv
    obtain ⟨s, -, rfl⟩ := Option.map_eq_some_iff.mp hv
    exact .text s
  have htime (t : Option Int) : ∀ v ∈ t.map Json.integer, Json.Written v := by
    intro v hv
    obtain ⟨n, -, rfl⟩ := Option.map_eq_some_iff.mp hv
    exact .integer n
  have haudience : ∀ v ∈ c.audience.map Audience.toJson, Json.Written v := by
    intro v hv
    obtain ⟨a, -, rfl⟩ := Option.map_eq_some_iff.mp hv
    cases a with
    | single name => exact .text name
    | many names => exact Json.written_texts names
  have hcapabilities : ∀ v ∈ some (Json.texts c.capabilities), Json.Written v := by
    rintro _ ⟨rfl⟩
    exact Json.written_texts c.capabilities
  rw [toJson_eq]
  refine Json.written_present ?_
  simp only [entries, List.forall_mem_cons]
  exact ⟨htext _, htext _, htext _, htext _, htext _, htext _, hcapabilities, haudience, htime _, htime _, htime _,
    htext _, htext _, htext _, nofun⟩

/-- **Claims survive being written and read.** -/
theorem Claims.read_print (hc : c.Timely) : read (Json.print c.toJson) = some c := by
  rw [read, c.written_toJson.read_print, Option.bind_some, ofJson?_toJson hc]

/-- Two texts under one name that are written the same are the same, empty or not. -/
theorem eq_of_map_nonEmpty? {a b : String} (h : (nonEmpty? a).map Json.text = (nonEmpty? b).map Json.text) :
    a = b := by
  have hsome (s : String) : (((nonEmpty? s).map Json.text).bind Json.text?).getD "" = s := by
    rw [nonEmpty?]
    split
    · rename_i hempty
      exact (String.isEmpty_iff.mp hempty).symm
    · exact congrArg (Option.getD · "") (Json.text?_text s)
  rw [← hsome a, h, hsome b]

theorem Claims.toJson_injective : Function.Injective toJson := by
  intro c c' h
  have hread := c.fields?_toJson
  rw [h, fields?_toJson] at hread
  have hfields : c.fields = c'.fields := (Option.some.inj hread).symm
  have hentry (name : String) : (c.entries.lookup name).join = (c'.entries.lookup name).join := by
    rw [← get?_fields, hfields, get?_fields]
  have htext (name : String) {a b : String} (ha : (c.entries.lookup name).join = (nonEmpty? a).map Json.text)
      (hb : (c'.entries.lookup name).join = (nonEmpty? b).map Json.text) : a = b :=
    eq_of_map_nonEmpty? (ha.symm.trans ((hentry name).trans hb))
  have htime (name : String) {a b : Option Int} (ha : (c.entries.lookup name).join = a.map Json.integer)
      (hb : (c'.entries.lookup name).join = b.map Json.integer) : a = b :=
    Option.map_injective Json.integer_injective (ha.symm.trans ((hentry name).trans hb))
  have hcapabilities : c.capabilities = c'.capabilities := by
    have hread := c.readCapabilities
    rw [hfields, readCapabilities] at hread
    exact (Option.some.inj (Option.some.inj hread)).symm
  have haudience : c.audience = c'.audience := by
    have hread := c.readAudience
    rw [hfields, readAudience] at hread
    exact (Option.some.inj hread).symm
  cases c
  cases c'
  rw [mk.injEq]
  exact ⟨htext "kid" rfl rfl, htext "mac" rfl rfl, htext "partner-id" rfl rfl, htext "serial" rfl rfl,
    htext "trust" rfl rfl, htext "uuid" rfl rfl, hcapabilities, haudience, htime "exp" rfl rfl, htime "iat" rfl rfl,
    htime "nbf" rfl rfl, htext "iss" rfl rfl, htext "sub" rfl rfl, htext "jti" rfl rfl⟩

/-- **Claims survive the wire.** Whatever their texts, capabilities and audience are, claims whose times fit 64
signed bits are read back from their document and from its bytes, and no other claims have these bytes. -/
theorem claims_survive_wire (c : Claims) :
    (c.Timely → Claims.ofJson? c.toJson = some c ∧ Claims.read (Json.print c.toJson) = some c) ∧
    ∀ c' : Claims, Json.print c'.toJson = Json.print c.toJson → c' = c := by
  refine ⟨fun hc => ⟨Claims.ofJson?_toJson hc, Claims.read_print hc⟩, fun c' h => ?_⟩
  have hread := c'.written_toJson.read_print
  rw [h, c.written_toJson.read_print] at hread
  exact Claims.toJson_injective (Option.some.inj hread).symm

/-- The first and the last time that there are, texts that need escapes, and an audience of one name in a list. -/
theorem claims_survive_wire_at_limits :
    let c : Claims :=
      { kid := "\"\\/\x00\n", partnerId := "Ωü🔑", capabilities := ["", "a\x1fb"], audience := some (.many ["x"])
        expiry := some 9223372036854775807, issuedAt := some (-9223372036854775808), notBefore := some 0 }
    Claims.read (Json.print c.toJson) = some c ∧
      Json.print { c with audience := some (.single "x") }.toJson ≠ Json.print c.toJson := by
  intro c
  have htimely : c.Timely := by
    intro t ht n hn
    simp only [c, List.mem_cons, List.not_mem_nil, or_false] at ht
    rcases ht with rfl | rfl | rfl <;> obtain rfl := Option.mem_some.mp hn <;> decide
  obtain ⟨hread, hunique⟩ := claims_survive_wire c
  refine ⟨(hread htimely).2, fun h => ?_⟩
  have hsame := congrArg Claims.audience (hunique _ h)
  cases hsame

end DeviceTrust.Token
