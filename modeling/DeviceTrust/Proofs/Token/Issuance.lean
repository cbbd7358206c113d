import DeviceTrust.Proofs.Rsa.Verification
import DeviceTrust.Proofs.Token.Issued

/-!
# What is issued can be read

An issuer refuses without a key, and where the whole seconds of the lifetime do not fit 63 bits. What
is left is up to the key. A token that it does sign can be taken apart again before any key is at
hand: none of its segments is empty, since a signature that was checked is not, and the identifier and
the claims come back whatever characters they have. For the times this is due to the expiry, which
stops at the greatest time there is, so that it fits the reader and is not before the clock.
-/

namespace DeviceTrust.Token

variable {a : Authority} {k : SigningKey} {signer : Option SigningKey} {p : Profile} {r : Request} {t₀ : Int}
  {source : RandomSource} {token kid : String} {c : Claims} {signature : Bytes}

/-- A token of three segments, none of them empty, in which an identifier and claims are found without a key. -/
structure Legible (token kid : String) (c : Claims) : Prop where
  segments : ∃ header payload signature,
    Text.split '.' token = [header, payload, signature] ∧ header ≠ "" ∧ payload ≠ "" ∧ signature ≠ ""
  parseKid_eq : parseKid token = .ok kid
  readClaims_eq : readClaims token = .ok c

theorem encode_ne_empty {b : Bytes} (hb : b ≠ []) : Base64.encode .url b ≠ "" := fun h =>
  absurd (String.isEmpty_iff.mpr h) (by rw [isEmpty_encode hb]; exact Bool.false_ne_true)

theorem split_assembled (kid : String) (c : Claims) (signature : Bytes) :
    Text.split '.' (assembled kid c signature) = [Base64.encode .url (Json.print (header kid)),
      Base64.encode .url (Json.print c.toJson), Base64.encode .url signature] :=
  Text.split_three (dot_notMem_encode _) (dot_notMem_encode _) (dot_notMem_encode _)

theorem readClaims_assembled (hc : c.Timely) : readClaims (assembled kid c signature) = .ok c := by
  have hpart : readPart .payload Claims.read (Base64.encode .url (Json.print c.toJson)) = .ok c :=
    readPart_eq_ok (decodeSegment_encode _) (Claims.read_print hc)
  rw [readClaims, segments_assembled, ok_bind]
  exact hpart

theorem legible_assembled (hkid : kid ≠ "") (hc : c.Timely) (hsignature : signature ≠ []) :
    Legible (assembled kid c signature) kid c where
  segments := ⟨_, _, _, split_assembled kid c signature, encode_ne_empty (header_ne_nil kid),
    encode_ne_empty (payload_ne_nil c), encode_ne_empty hsignature⟩
  parseKid_eq := parseKid_assembled hkid
  readClaims_eq := readClaims_assembled hc

theorem SigningKey.legible_of_sign (hkid : k.kid ≠ "") (hc : c.Timely) (h : k.sign c = .ok token) :
    Legible token k.kid c := by
  obtain ⟨key, signature, -, hsignature, rfl⟩ := sign_eq_ok_iff.mp h
  exact legible_assembled hkid hc (Rsa.PublicKey.ne_nil_of_verify (Rsa.PrivateKey.verify_of_sign hsignature))

/-- An expiry that stops at the greatest time is not before the clock. -/
theorem le_expiry (hend : t₀ ≤ maxTime) : t₀ ≤ r.expiry t₀ := by
  unfold Request.expiry
  omega

theorem issue_ne_ok_empty : (Token.issue signer p t₀ r source).1 ≠ .ok "" := by
  intro h
  cases signer with
  | none => cases h
  | some k =>
    obtain ⟨-, key, signature, -, -, hempty⟩ := issue_eq_ok_iff.mp h
    have hdot : '.' ∈ (assembled k.kid (issuedClaims k p t₀ r source) signature).toList := by
      simp [assembled]
    rw [← hempty] at hdot
    cases hdot

/-- The empty text is what is generated where nothing is issued, and in no other case. -/
theorem Authority.generate_eq_empty_iff (a : Authority) (t₀ : Int) (r : Request) (source : RandomSource) :
    (a.generate t₀ r source).1 = "" ↔ ∃ e, (a.issue t₀ r source).1 = .error e := by
  have hgenerate : (a.generate t₀ r source).1 = (a.issue t₀ r source).1.toOption.getD "" := rfl
  rw [hgenerate]
  cases hissue : (a.issue t₀ r source).1 with
  | error e => exact ⟨fun _ => ⟨e, rfl⟩, fun _ => rfl⟩
  | ok token =>
    constructor
    · intro hempty
      rw [Authority.issue, show token = "" from hempty] at hissue
      exact absurd hissue issue_ne_ok_empty
    · rintro ⟨e, h⟩
      cases h

/-- **What is issued can be read.** An authority that was built, at any time of 64 signed bits, refuses a request
when it has no signing key or the lifetime has more seconds than 63 bits hold. In every other case the
key signs the claims of the request, which begin at that time and end no earlier; and a token that
comes of it is legible. Only a failure makes the generated text empty. -/
theorem Authority.issues_legible_tokens {trust : Option TrustStore} {rules : Rules} {api device : ClassPolicy}
    (hbuild : build trust rules signer api device p = .ok a) (hstart : -(2 : Int) ^ 63 ≤ t₀)
    (hend : t₀ < (2 : Int) ^ 63) (r : Request) (source : RandomSource) :
    (signer = none → (a.issue t₀ r source).1 = .error (.configuration .noSigningKey)) ∧
    (∀ k ∈ signer, 2 ^ 63 - 1 < r.lifetime.seconds →
      (a.issue t₀ r source).1 = .error (.configuration .lifetimeOutOfRange)) ∧
    (∀ k ∈ signer, r.lifetime.seconds ≤ 2 ^ 63 - 1 →
      let expiry := min (t₀ + r.lifetime.seconds) (2 ^ 63 - 1)
      let c := issuedClaims k p t₀ r source
      (a.issue t₀ r source).1 = (k.sign c).mapError .signing ∧
      c.issuedAt = some t₀ ∧ c.notBefore = some t₀ ∧ c.expiry = some expiry ∧ t₀ ≤ expiry ∧
      ∀ token, k.sign c = .ok token → Legible token k.kid c) ∧
    ((a.generate t₀ r source).1 = "" ↔ ∃ e, (a.issue t₀ r source).1 = .error e) := by
  obtain ⟨hkid, -, -, hsigner, hprofile⟩ := parts_of_build hbuild
  have hlast : maxTime = (2 : Int) ^ 63 - 1 := rfl
  have hclock : t₀ ≤ maxTime := by omega
  have hissue : (a.issue t₀ r source).1 = (Token.issue signer p t₀ r source).1 := by
    rw [Authority.issue, hsigner, hprofile]
  refine ⟨?_, ?_, ?_, a.generate_eq_empty_iff t₀ r source⟩
  · rintro rfl
    rw [hissue]
    rfl
  · rintro k ⟨rfl⟩ hlifetime
    rw [hissue]
    exact issue_of_lt (by omega)
  · rintro k ⟨rfl⟩ hlifetime expiry c
    rw [hissue]
    have htimely : c.Timely := timely_issuedClaims_of_clock hstart hclock
    exact ⟨issue_of_le (by omega), rfl, rfl, rfl, le_expiry (r := r) hclock,
      fun token h => SigningKey.legible_of_sign (hkid k rfl) htimely h⟩

/-- A key whose identifier needs escapes signs a token for five minutes when time has less than two minutes left. -/
theorem issues_legible_tokens_at_end_of_time :
    ∃ (a : Authority) (r : Request) (token : String) (c : Claims), r.lifetime = .ofSeconds 300 ∧
      (a.issue (2 ^ 63 - 100) r []).1 = .ok token ∧ (a.generate (2 ^ 63 - 100) r []).1 ≠ "" ∧
      Legible token "\".\\🔑\x00" c ∧ c.mac = "\n" ∧ c.expiry = some (2 ^ 63 - 1) := by
  let k : SigningKey := ⟨"\".\\🔑\x00", issuerDocument⟩
  let p : Profile := {}
  let r : Request := ⟨"\n", .ofSeconds 300, none, none, none⟩
  let a : Authority := ⟨.keyring ⟨⟨[]⟩⟩, .current none, some k, {}, {}, p⟩
  let c : Claims := issuedClaims k p (2 ^ 63 - 100) r []
  have hbuild : Authority.build (some a.trustStore) (.current none) (some k) {} {} p = .ok a := by decide +kernel
  have hkeys : (Rsa.PrivateKey.ofDer k.der).toOption.any (fun key =>
      (key.sign .sha256 (Base64.encodeBytes .url (Json.print (header k.kid)) ++
        0x2e :: Base64.encodeBytes .url (Json.print c.toJson))).isSome) = true := by
    decide +kernel
  rw [← ofText_signedPart] at hkeys
  obtain ⟨key, hkey, hsign⟩ := any_toOption.mp hkeys
  obtain ⟨signature, hsignature⟩ := Option.isSome_iff_exists.mp hsign
  have hsigned : k.sign c = .ok (assembled k.kid c signature) :=
    SigningKey.sign_eq_ok_iff.mpr ⟨key, signature, hkey, hsignature, rfl⟩
  have hstart : -(2 : Int) ^ 63 ≤ 2 ^ 63 - 100 := by decide
  obtain ⟨-, -, hserved, hempty⟩ := Authority.issues_legible_tokens hbuild hstart (by decide) r []
  obtain ⟨hissue, -, -, hexpiry, -, hlegible⟩ := hserved k rfl (by decide)
  have hlast : min ((2 : Int) ^ 63 - 100 + (Duration.ofSeconds 300).seconds) (2 ^ 63 - 1) = 2 ^ 63 - 1 := by decide
  rw [hsigned] at hissue
  refine ⟨a, r, _, c, rfl, hissue, fun h => ?_, hlegible _ hsigned, rfl, hexpiry.trans (congrArg some hlast)⟩
  obtain ⟨e, he⟩ := hempty.mp h
  rw [hissue] at he
  cases he

end DeviceTrust.Token
