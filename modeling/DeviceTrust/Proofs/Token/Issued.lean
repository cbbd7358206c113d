import DeviceTrust.Proofs.Base64.Canonical
import DeviceTrust.Proofs.Rsa.Signing
import DeviceTrust.Proofs.Token.Acceptance
import DeviceTrust.Proofs.Token.Wire

/-!
# Issued tokens verify exactly when they should

An issued token has three segments, each of them base64 of what was put there: a header that names
the algorithm and the key, the claims, and a signature that its own key has checked. So whoever holds
the matching public key finds the claims as they were built, and what is left of verification are
the policy of the class, the clocks and the audience.

A genuine key refuses no request whose lifetime can be counted; what other keys issue is correct as well.
-/

namespace DeviceTrust.Token

variable {a : Authority} {store : TrustStore} {k : SigningKey} {K : VerificationKey} {p : Profile} {r : Request}
  {kind : VerifierKind} {audience binding : Option String} {now t₀ : Int} {source : RandomSource} {token kid : String}
  {cls : TokenClass} {c : Claims} {signature : Bytes}

theorem written_header (kid : String) : Json.Written (header kid) := by
  refine .record fun m hm => ?_
  simp only [List.mem_cons, List.not_mem_nil, or_false] at hm
  rcases hm with rfl | rfl
  · exact .text _
  · exact .text _

theorem readHeaderKid_header (kid : String) : readHeaderKid (Json.print (header kid)) = some (some kid) := by
  have hfields : Json.fields? ["kid"] (header kid) = some ⟨false, [("kid", Json.text kid)]⟩ :=
    Json.fields?_record rfl (List.nodup_singleton _)
  simp only [readHeaderKid, (written_header kid).read_print, Option.bind_eq_bind, Option.bind_some, hfields]
  exact congrArg (Option.map some) (Json.text?_text kid)

theorem readAlgorithm_header (kid : String) : readAlgorithm (Json.print (header kid)) = some "RS256" := by
  let fields : Json.Fields := ⟨false, [("alg", Json.text "RS256"), ("kid", Json.text kid)]⟩
  have hfields : Json.fields? ["typ", "alg", "cty", "jku", "jwk", "kid", "x5u", "x5c", "x5t", "x5t#S256"]
      (header kid) = some fields := Json.fields?_record rfl (by simp)
  have habsent {α : Type} (name : String) (value? : Json → Option α) (h : fields.get? name = none) :
      fields.placed? name value? = some none := by
    rw [Json.Fields.placed?, h]
    rfl
  have halgorithm : fields.required? "alg" (Json.choice? algorithmNames false) = some "RS256" := by
    change Json.choice? algorithmNames false (.string (Json.spell "RS256")) = _
    rw [Json.choice?, Json.unspell_spell]
    rfl
  have hkid : fields.placed? "kid" Json.text? = some (some kid) :=
    congrArg (Option.map some) (Json.text?_text kid)
  simp only [readAlgorithm, (written_header kid).read_print, Option.bind_eq_bind, Option.bind_some, hfields, halgorithm,
    hkid, habsent "typ" _ rfl, habsent "cty" _ rfl, habsent "jku" _ rfl, habsent "jwk" _ rfl, habsent "x5u" _ rfl,
    habsent "x5c" _ rfl, habsent "x5t" _ rfl, habsent "x5t#S256" _ rfl]
  rfl

theorem header_ne_nil (kid : String) : Json.print (header kid) ≠ [] := List.cons_ne_nil _ _

theorem payload_ne_nil (c : Claims) : Json.print c.toJson ≠ [] := List.cons_ne_nil _ _

theorem decodeSegment_encode (b : Bytes) : decodeSegment (Base64.encode .url b) = .ok b := by
  rw [decodeSegment, Base64.decode_encode]

theorem dot_notMem_encode (b : Bytes) : '.' ∉ (Base64.encode .url b).toList :=
  Base64.dot_notMem_of_decode (Base64.decode_encode .url b)

theorem isEmpty_encode {b : Bytes} (hb : b ≠ []) : (Base64.encode .url b).isEmpty = false := by
  refine Bool.eq_false_iff.mpr fun h => hb ?_
  have hdecode := Base64.decode_encode .url b
  have hempty : Base64.decode .url "" = .ok [] := rfl
  rw [String.isEmpty_iff.mp h, hempty] at hdecode
  exact (Except.ok.inj hdecode).symm

def assembled (kid : String) (c : Claims) (signature : Bytes) : String :=
  signedPart kid c ++ "." ++ Base64.encode .url signature

theorem segments_assembled (kid : String) (c : Claims) (signature : Bytes) :
    segments? (assembled kid c signature) =
      .ok (Base64.encode .url (Json.print (header kid)), Base64.encode .url (Json.print c.toJson)) :=
  segments_append (dot_notMem_encode _) (dot_notMem_encode _) (dot_notMem_encode _)
    (isEmpty_encode (header_ne_nil kid)) (isEmpty_encode (payload_ne_nil c))

theorem parseKid_assembled (hkid : kid ≠ "") : parseKid (assembled kid c signature) = .ok kid := by
  have hpart : readPart .header readHeaderKid (Base64.encode .url (Json.print (header kid))) = .ok (some kid) :=
    readPart_eq_ok (decodeSegment_encode _) (readHeaderKid_header kid)
  have hne : kid.isEmpty = false := Bool.eq_false_iff.mpr fun h => hkid (String.isEmpty_iff.mp h)
  rw [parseKid, segments_assembled, ok_bind]
  simp only [hpart, ok_bind, hne]
  rfl

theorem readChecked_payload (hc : c.Timely) : readChecked (Json.print c.toJson) = some c := by
  rw [readChecked, c.written_toJson.read_print]
  simp only [Option.bind_eq_bind, Option.bind_some, Claims.ofJson?_toJson hc]
  rfl

/-- Whoever holds the public key finds the claims under a signature of it. -/
theorem signed_assembled {key : Rsa.PublicKey} {hashes : List Rsa.Hash} (hK : K.rsa? = some key)
    (hhash : .sha256 ∈ hashes) (hc : c.Timely)
    (hgenuine : key.verify .sha256 (Bytes.ofText (signedPart kid c)) signature = true) :
    Signed hashes K (assembled kid c signature) c := by
  have hrsa : K.isRsa = true := by
    cases K with
    | rsaParts n e => rfl
    | rsaDocument der => rfl
    | ellipticCurve x y => cases hK
    | edwards x => cases hK
    | secret bytes => cases hK
  have halgorithm : (hashOfAlgorithm? "RS256").filter hashes.contains = some .sha256 := by
    have hnamed : hashOfAlgorithm? "RS256" = some .sha256 := rfl
    rw [hnamed, Option.filter_some, if_pos (List.contains_iff_mem.mpr hhash)]
  exact ⟨hrsa, splitLast_append (dot_notMem_encode _), splitLast_append (dot_notMem_encode _), decodeSegment_encode _,
    readAlgorithm_header kid, halgorithm, decodeSegment_encode _, by rw [hK]; exact hgenuine, decodeSegment_encode _,
    readChecked_payload hc⟩

/-- What is signed are the symbols of the header and of the claims, and a dot. -/
theorem ofText_signedPart (kid : String) (c : Claims) : Bytes.ofText (signedPart kid c) =
    Base64.encodeBytes .url (Json.print (header kid)) ++ 0x2e :: Base64.encodeBytes .url (Json.print c.toJson) := by
  have hsymbols (b : Bytes) : Bytes.ofText (Base64.encode .url b) = Base64.encodeBytes .url b :=
    Bytes.ofText_ofList_map fun _ => Base64.lt_of_mem_encodeBytes
  have hdot : Bytes.ofText "." = [0x2e] := by decide
  rw [signedPart, Bytes.ofText_append, Bytes.ofText_append, hsymbols, hsymbols, hdot, List.append_assoc,
    List.singleton_append]

/-- The claims of the token that a key issues for a request, with the identifiers that are drawn for it. -/
def issuedClaims (k : SigningKey) (p : Profile) (t₀ : Int) (r : Request) (source : RandomSource) : Claims :=
  r.claims p k.kid t₀ (Uuid.draw source).1 (Uuid.draw (Uuid.draw source).2).1

def SigningKey.Matches (k : SigningKey) (K : VerificationKey) : Prop :=
  ∃ key, Rsa.PrivateKey.ofDer k.der = .ok key ∧ K.rsa? = some key.publicKey

/-- Claims are signed where the key can be read and verifies what it signs. -/
theorem SigningKey.sign_eq_ok_iff : k.sign c = .ok token ↔ ∃ key signature, Rsa.PrivateKey.ofDer k.der = .ok key ∧
    key.sign .sha256 (Bytes.ofText (signedPart k.kid c)) = some signature ∧ token = assembled k.kid c signature := by
  rw [SigningKey.sign]
  constructor
  · intro h
    split at h
    · cases h
    · rename_i key hkey
      simp only at h
      split at h
      · rename_i signature hsignature
        exact ⟨key, signature, hkey, hsignature, (Except.ok.inj h).symm⟩
      · cases h
  · rintro ⟨key, signature, hkey, hsignature, rfl⟩
    rw [hkey]
    simp only [hsignature]
    rfl

/-- Whether a token is issued is up to the key, where the lifetime can be counted. -/
theorem issue_of_le (hlifetime : r.lifetime.seconds ≤ maxTime) :
    (Token.issue (some k) p t₀ r source).1 = (k.sign (issuedClaims k p t₀ r source)).mapError .signing := by
  rw [Token.issue]
  simp only
  rw [if_neg (Int.not_lt.mpr hlifetime)]
  rfl

theorem issue_of_lt (hlifetime : maxTime < r.lifetime.seconds) :
    (Token.issue (some k) p t₀ r source).1 = .error (.configuration .lifetimeOutOfRange) := by
  rw [Token.issue]
  simp only
  rw [if_pos hlifetime]

/-- A token is issued where the lifetime can be counted and the key signs. -/
theorem issue_eq_ok_iff : (Token.issue (some k) p t₀ r source).1 = .ok token ↔
    r.lifetime.seconds ≤ maxTime ∧ ∃ key signature, Rsa.PrivateKey.ofDer k.der = .ok key ∧
      key.sign .sha256 (Bytes.ofText (signedPart k.kid (issuedClaims k p t₀ r source))) = some signature ∧
      token = assembled k.kid (issuedClaims k p t₀ r source) signature := by
  rw [← SigningKey.sign_eq_ok_iff]
  by_cases hlifetime : r.lifetime.seconds ≤ maxTime
  · rw [issue_of_le hlifetime, mapError_eq_ok]
    exact ⟨fun h => ⟨hlifetime, h⟩, And.right⟩
  · rw [issue_of_lt (Int.not_le.mp hlifetime)]
    exact ⟨nofun, fun h => absurd h.1 hlifetime⟩

/-- With a genuine key nothing but the lifetime decides whether a token is issued. -/
theorem exists_issued_iff {key : Rsa.PrivateKey} (hkey : Rsa.PrivateKey.ofDer k.der = .ok key)
    (hgenuine : key.Genuine) :
    (∃ token, (Token.issue (some k) p t₀ r source).1 = .ok token) ↔ r.lifetime.seconds ≤ maxTime := by
  constructor
  · rintro ⟨token, htoken⟩
    exact (issue_eq_ok_iff.mp htoken).1
  · intro hlifetime
    obtain ⟨signature, hsignature⟩ := Option.isSome_iff_exists.mp
      (Rsa.PrivateKey.isSome_sign (Rsa.PrivateKey.consistent_of_ofDer hkey) hgenuine .sha256
        (Bytes.ofText (signedPart k.kid (issuedClaims k p t₀ r source))))
    exact ⟨_, issue_eq_ok_iff.mpr ⟨hlifetime, key, signature, hkey, hsignature, rfl⟩⟩

def Request.expiry (r : Request) (t₀ : Int) : Int := min (t₀ + r.lifetime.seconds) maxTime

theorem expiry_bounds (hstart : 0 ≤ t₀) : 0 ≤ r.expiry t₀ ∧ r.expiry t₀ ≤ maxTime := by
  unfold Request.expiry maxTime
  omega

theorem timely_issuedClaims_of_clock (hstart : -(2 : Int) ^ 63 ≤ t₀) (hend : t₀ ≤ maxTime) :
    (issuedClaims k p t₀ r source).Timely := by
  have hclock : -(2 : Int) ^ 63 ≤ t₀ ∧ t₀ < (2 : Int) ^ 63 := by
    unfold maxTime at hend
    omega
  have hexpiry : -(2 : Int) ^ 63 ≤ r.expiry t₀ ∧ r.expiry t₀ < (2 : Int) ^ 63 := by
    unfold Request.expiry maxTime
    omega
  intro t ht n hn
  simp only [List.mem_cons, List.not_mem_nil, or_false] at ht
  rcases ht with rfl | rfl | rfl
  · cases hn
    exact hexpiry
  · cases hn
    exact hclock
  · cases hn
    exact hclock

theorem timely_issuedClaims (hstart : 0 ≤ t₀) (hend : t₀ ≤ maxTime) : (issuedClaims k p t₀ r source).Timely :=
  timely_issuedClaims_of_clock (by omega) hend

theorem checkedTime_of_nonneg {n : Int} (h : 0 ≤ n) : checkedTime (some n) = some n := by
  rw [checkedTime, Option.filter_some, if_pos (decide_eq_true h)]

/-- When the clocks and the audience are in favour of a token that was issued at one time, expires at another and
names an audience. The legacy rules look at the expiry alone. -/
def VerifierKind.Favours (audience : Option String) (named : String) (issued expiry now : Int) : VerifierKind → Prop
  | .current => now - 30 ≤ expiry ∧ issued ≤ now + 30 ∧ ∀ wanted ∈ audience, wanted = named
  | .legacy => now - 300 ≤ expiry

theorem passes_issuedClaims (haudience : p.audience ≠ "") (hstart : 0 ≤ t₀) :
    (kind.rules audience).Passes now (issuedClaims k p t₀ r source) ↔
      kind.Favours audience p.audience t₀ (r.expiry t₀) now := by
  have hexpiry : checkedTime (issuedClaims k p t₀ r source).expiry = some (r.expiry t₀) :=
    checkedTime_of_nonneg (expiry_bounds hstart).1
  have hbegin : checkedTime (issuedClaims k p t₀ r source).notBefore = some t₀ := checkedTime_of_nonneg hstart
  have hnamed : (issuedClaims k p t₀ r source).audience = some (.single p.audience) :=
    if_neg fun h => haudience (String.isEmpty_iff.mp h)
  cases kind with
  | current =>
    constructor
    · rintro ⟨-, hunexpired, hstarted, haddressed⟩
      exact ⟨hunexpired _ hexpiry, hstarted rfl _ hbegin,
        fun wanted hwanted => List.mem_singleton.mp (haddressed wanted hwanted _ hnamed)⟩
    · rintro ⟨hunexpired, hstarted, haddressed⟩
      refine ⟨fun _ => ?_, ?_, fun _ => ?_, ?_⟩
      · rw [hexpiry]
        exact Option.some_ne_none _
      · rw [hexpiry]
        rintro _ ⟨rfl⟩
        exact hunexpired
      · rw [hbegin]
        rintro _ ⟨rfl⟩
        exact hstarted
      · rw [hnamed]
        rintro wanted hwanted _ ⟨rfl⟩
        exact List.mem_singleton.mpr (haddressed wanted hwanted)
  | legacy =>
    constructor
    · exact fun h => h.unexpired _ hexpiry
    · intro hunexpired
      refine ⟨nofun, ?_, nofun, nofun⟩
      rw [hexpiry]
      rintro _ ⟨rfl⟩
      exact hunexpired

theorem admits_issuedClaims {policy : ClassPolicy} : policy.Admits binding (issuedClaims k p t₀ r source) ↔
    (policy.requiredCapabilities = [] ∨
      ∃ name ∈ policy.requiredCapabilities, name ∈ r.capabilities.getD p.capabilities) ∧
    ∀ b ∈ binding, r.binding ≠ "" ∧ Text.lowerAscii r.binding = Text.lowerAscii b :=
  ⟨fun h => ⟨h.capability, h.bound⟩, fun h => ⟨h.1, h.2⟩⟩

/-- An authority has the parts that it was built from, and its signing key an identifier. -/
theorem Authority.parts_of_build {trust : Option TrustStore} {rules : Rules} {signer : Option SigningKey}
    {api device : ClassPolicy} (h : build trust rules signer api device p = .ok a) :
    (∀ k ∈ signer, k.kid ≠ "") ∧ trust = some a.trustStore ∧ a.rules = rules ∧ a.signingKey = signer ∧
      a.profile = p := by
  unfold build at h
  split at h
  · cases h
  · split at h
    · cases h
    · rename_i hkid
      cases h
      refine ⟨fun k hk hempty => hkid ?_, rfl, rfl, rfl, rfl⟩
      rw [Option.mem_def.mp hk, Option.any_some, hempty]
      rfl

theorem Authority.build_eq_ok {api device : ClassPolicy} {rules : Rules}
    (h : build (some store) rules (some k) api device p = .ok a) :
    k.kid ≠ "" ∧ a.trustStore = store ∧ a.rules = rules ∧ a.signingKey = some k ∧ a.profile = p := by
  obtain ⟨hkid, hstore, hparts⟩ := parts_of_build h
  exact ⟨hkid k rfl, (Option.some.inj hstore).symm, hparts⟩

/-- A signed token that names its key is accepted with its claims, if the class allows the key and the claims
pass the policy and the checks, and in no other case. -/
theorem Authority.verify_eq_ok_of_signed (hkid : parseKid token = .ok kid)
    (htrust : (a.trustStore.resolve kid).1 = some K) (hsigned : Signed a.rules.hashes K token c) (now : Int)
    (cls : TokenClass) (binding : Option String) (c' : Claims) :
    (a.verify now token cls binding).1 = .ok c' ↔
      c' = c ∧ kid ∈ (a.policy cls).allowedKids ∧ (a.policy cls).Admits binding c ∧ a.rules.Passes now c := by
  obtain ⟨_, _, hsegments⟩ := segments_of_parseKid hkid
  have hread := hsigned.readClaims hsegments
  rw [verify_fst_eq_ok_iff]
  constructor
  · rintro ⟨kid', key, hscreen, hkey, hverify⟩
    obtain ⟨hkid', hallowed, c₁, hread₁, hadmits⟩ := screen_eq_ok_iff.mp hscreen
    rw [hkid] at hkid'
    cases hkid'
    rw [hread] at hread₁
    cases hread₁
    have hread' := Rules.readClaims_of_verify hkid hverify
    rw [hread] at hread'
    cases hread'
    exact ⟨rfl, hallowed, hadmits, (Rules.verify_eq_ok_iff.mp hverify).2⟩
  · rintro ⟨rfl, hallowed, hadmits, hpasses⟩
    exact ⟨kid, K, screen_eq_ok_iff.mpr ⟨hkid, hallowed, c', hread, hadmits⟩, htrust,
      Rules.verify_eq_ok_iff.mpr ⟨hsigned, hpasses⟩⟩

/-- **Issued tokens verify exactly when they should.** What an authority issues it accepts, while its trust store
has the matching key, just if the class allows the key, one of its capabilities was granted, the
binding is the requested one, and the clocks and the audience agree; and the claims that come back
are those that were built. -/
theorem issued_verifies_iff {api device : ClassPolicy}
    (hbuild : Authority.build (some store) (kind.rules audience) (some k) api device p = .ok a)
    (htrust : (store.resolve k.kid).1 = some K) (hK : k.Matches K) (haudience : p.audience ≠ "")
    (hstart : 0 ≤ t₀) (hend : t₀ ≤ maxTime) (htoken : (a.issue t₀ r source).1 = .ok token)
    (now : Int) (cls : TokenClass) (binding : Option String) :
    ((∃ c, (a.verify now token cls binding).1 = .ok c) ↔
      k.kid ∈ (a.policy cls).allowedKids ∧
      ((a.policy cls).requiredCapabilities = [] ∨
        ∃ name ∈ (a.policy cls).requiredCapabilities, name ∈ r.capabilities.getD p.capabilities) ∧
      (∀ b ∈ binding, r.binding ≠ "" ∧ Text.lowerAscii r.binding = Text.lowerAscii b) ∧
      kind.Favours audience p.audience t₀ (r.expiry t₀) now) ∧
    ∀ c, (a.verify now token cls binding).1 = .ok c → c = issuedClaims k p t₀ r source := by
  obtain ⟨hkid, hstore, hrules, hsigning, hprofile⟩ := Authority.build_eq_ok hbuild
  rw [Authority.issue, hsigning, hprofile] at htoken
  obtain ⟨-, key, signature, hkey, hsignature, htext⟩ := issue_eq_ok_iff.mp htoken
  subst htext
  -- the document is read as one key only: the one that signed is the one whose public half is trusted
  obtain ⟨key', hkey', hpublic⟩ := hK
  rw [hkey] at hkey'
  cases hkey'
  have htimely : (issuedClaims k p t₀ r source).Timely := timely_issuedClaims hstart hend
  have hsigned : Signed (kind.rules audience).hashes K
      (assembled k.kid (issuedClaims k p t₀ r source) signature) (issuedClaims k p t₀ r source) := by
    refine signed_assembled hpublic ?_ htimely (Rsa.PrivateKey.verify_of_sign hsignature)
    cases kind <;> exact List.mem_cons_self
  rw [← hstore] at htrust
  rw [← hrules] at hsigned
  have hverify (c : Claims) := Authority.verify_eq_ok_of_signed (parseKid_assembled hkid) htrust hsigned now cls
    binding c
  simp only [hrules, passes_issuedClaims haudience hstart, admits_issuedClaims, and_assoc] at hverify
  constructor
  · constructor
    · rintro ⟨c, hc⟩
      exact ((hverify c).mp hc).2
    · exact fun h => ⟨_, (hverify _).mpr ⟨rfl, h⟩⟩
  · exact fun c hc => ((hverify c).mp hc).1

def issuerDocument : Bytes :=
  [0x308204a302010002820101009f012594acc1267033d83879ea5ad68fb69192f882282f39f0dbe32fb0b8d063ae3409cd,
    0x74d8fcb0f39351f51ff1bc5400eb0decb13b310a48e42a18c743dc3c3bf2a730fb4f4e2381e8815ce262d8631f0a1723,
    0x8de92735cf0908628abf2336c4968c9af9a364cd2b57cbaea28ce4f7befd6c7db97f8ebadd11d6e297d9b2f72f824676,
    0x0674764742618daae725d1d477d3f507a51c1404fba5eabf6b5720ccb784f004e71910e300edf0fb1408a2094b3c1b99,
    0xa83b6431386407f0161dcf776449422e7a5eb765ca38f1bed1accb2df33d49aab7d6aadea76a0a43d76fdc5fe7b265f5,
    0x5a6139b0830f94a3e3c23e64f6651fdec9c8dd94815ca6b8ef3dad450203010001028201000a0048f703dcb6f30f6d16,
    0x09a3bcd34a6bcf2bec374799722eb258a505c66cce70451ea963cef2d49b257f88b30481f628aea036c1e3b9646e619c,
    0xe7926a5ec912738df798946193a88151830af6f0ff09bdee91a7c496ae4842470592638e594cb3dece854d8a8815d0aa,
    0x6391742f975e55d35949c325079f8dc133347396d18dafe394014373aa116df23580e17170aed84bbc6a48cfc09b50f8,
    0x2858c684be74892df53174ab8c4dd34a79a6ecbd9402ecea1177e901f68c21c68a80f4f8b51d0c22a7cb8a51cd29c8bd,
    0x0589c61fd044656991d49c39fdfbcda415d565e7ad98dae4bfec191e9f5eb794c1c70ebc7d978670faf238333e26bd5c,
    0x2620fc92fb02818100d0f0f3e5592f9ee52f74fbe572883f5a00e887d71dc4ce3f8702772aa04bf4482be087e00547e4,
    0xd19a364cd75eb87f7bc2a43385d50b7b84347d3da9ce5ba83e61868a0f35b75af16ec7f5bed4c782ffca8e447be4a359,
    0x4344a365fca6df0f78320ef81bb4f015e1f9a23c76f6b0f8dabe004a5e9d1b9f2629608a06a1ad847f02818100c2d0f6,
    0x3eb08d7f0ce214395ed5ad06bcfae93ccef146661c8a73e471d2a392f814e1ce7f86f548f295ce72093a387e8075ea4e,
    0xc073e17d9de31f3b33cb5b54bfdccf780689f6d7ab208048c0b4fd9c539d67ecab07dc48f8cfeccfa35a1bb5d80eb495,
    0x73d3ba1b9c1bcc15a6a64cc8c6587a7f5195ac858c69c188f1741ddc3b02818100a872d9eef96c2f0a4eac5db8aa11b6,
    0x2175c202622799d73dd836e0a3f8ffc33dbc4214c942f8a73d64ba8a50c808ae9eb45975405c76196a8876c013fa4e62,
    0xe187f6d3af577b2f529e218fb9fe09ab4f559a45142d4c94566b2be0b9443f695559e63f98f6d2e8917a949572c38801,
    0xd9387d3b77f3e9a4f13b429d84a32c25390281801de60804b2ffe441cbe8a2ad6549bac102190d960cfd6aea726d3ae0,
    0x251da98e9d55d2654c0714fcf5f4cb179371dc2846f080c9947f44d2186b50a0b05301fcb81cb724f9c38271e6f90931,
    0x5a159a0a531c01fc75a65f24a0748da15a50ea65904c32aba610e7efdb6c44de60a36424dcab6022db3fb0f74dbbc012,
    0x9e697ec5028180257f75a0a5b21214efd978609793bd042294228d479c448d7564df6e219415c0df523bb530e66a8cea,
    0x34e5037f098b997c70fc30fb1b5ab6136a8e87cf5702313b9712a3043ae17c3d546eb1486e6bfcfef483a6d97cd60ad5
  ].flatMap (Bytes.ofNat 48) ++
  Bytes.ofNat 39 0xc76b91f4068d8e60a402caddfb8919baaeb7774561de643112b6c3c197302403f35928f86cc52a

def issuerSigningKey : SigningKey := ⟨"webconfig_key", issuerDocument⟩

/-- The modulus of the issuer's key, under which it is published. -/
def issuerPublicKey : VerificationKey :=
  .rsaParts (((Rsa.privateParts? issuerDocument).toOption.getD []).getD 0 []) [1, 0, 1]

/-- A token for five minutes can be verified for half a minute more, and no longer. -/
theorem issued_verifies_until_leeway :
    ∃ (a : Authority) (r : Request) (token : String), r.lifetime = .ofSeconds 300 ∧
      (a.issue 1700000000 r []).1 = .ok token ∧
      (∃ c, (a.verify 1700000330 token .device (some "aa:BB")).1 = .ok c) ∧
      ¬ ∃ c, (a.verify 1700000331 token .device (some "aa:BB")).1 = .ok c := by
  let policy : ClassPolicy := ⟨["webconfig_key"], ["read", "write"]⟩
  let store : TrustStore := .keyring ⟨⟨[("webconfig_key", issuerPublicKey)]⟩⟩
  let profile : Profile := ⟨"", "XMiDT", "", "", "", ["write"]⟩
  let r : Request := ⟨"AA:bb", .ofSeconds 300, none, none, none⟩
  let a : Authority := ⟨store, .current none, some issuerSigningKey, {}, policy, profile⟩
  have hbuild : Authority.build (some store) (VerifierKind.current.rules none) (some issuerSigningKey) {} policy
    profile = .ok a := rfl
  let claims : Claims := issuedClaims issuerSigningKey profile 1700000000 r []
  have hkeys : (Rsa.PrivateKey.ofDer issuerSigningKey.der).toOption.any (fun key =>
      issuerPublicKey.rsa? == some key.publicKey &&
        (key.sign .sha256 (Base64.encodeBytes .url (Json.print (header issuerSigningKey.kid)) ++
          0x2e :: Base64.encodeBytes .url (Json.print claims.toJson))).isSome) = true := by
    decide +kernel
  rw [← ofText_signedPart] at hkeys
  obtain ⟨key, hkey, hgood⟩ := any_toOption.mp hkeys
  obtain ⟨hpublic, hsign⟩ := Bool.and_eq_true_iff.mp hgood
  obtain ⟨signature, hsignature⟩ := Option.isSome_iff_exists.mp hsign
  have hissue : (Token.issue (some issuerSigningKey) profile 1700000000 r []).1 =
      .ok (assembled issuerSigningKey.kid claims signature) :=
    issue_eq_ok_iff.mpr ⟨by decide, key, signature, hkey, hsignature, rfl⟩
  have hverifies (now : Int) := (issued_verifies_iff hbuild rfl ⟨key, hkey, beq_iff_eq.mp hpublic⟩ (by decide)
    (by decide) (by decide) hissue now .device (some "aa:BB")).1
  refine ⟨a, r, _, rfl, hissue, ?_, ?_⟩
  · refine (hverifies 1700000330).mpr ⟨List.mem_cons_self, .inr ⟨"write", ?_, ?_⟩, ?_, ?_⟩
    · exact List.mem_cons_of_mem _ List.mem_cons_self
    · exact List.mem_cons_self
    · rintro _ ⟨rfl⟩
      decide
    · exact ⟨by decide, by decide, nofun⟩
  · intro h
    obtain ⟨hunexpired, -⟩ := ((hverifies 1700000331).mp h).2.2.2
    exact absurd hunexpired (by decide)

end DeviceTrust.Token
