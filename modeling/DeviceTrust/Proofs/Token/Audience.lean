import DeviceTrust.Proofs.Token.Acceptance

/-!
# What a configured audience is good for

A verifier that is given an audience compares it with the audience of a token, if the token
has one. Nothing asks for an audience, so a token without one is accepted as if none were
configured, and the exact effect of configuring one is to turn away the tokens that name
others only.
-/

namespace DeviceTrust.Token

variable {key : VerificationKey} {now : Int} {token wanted : String} {c : Claims}

/-- The audience is there and a name is in it. -/
def Claims.Names (c : Claims) (name : String) : Prop := ∃ a, c.audience = some a ∧ name ∈ a.names

/-- The audience is the only thing that the current rules look at under one configuration and not under the
other. -/
theorem Rules.passes_current_iff :
    (Rules.current (some wanted)).Passes now c ↔
      (Rules.current none).Passes now c ∧ (c.audience = none ∨ c.Names wanted) := by
  constructor
  · rintro ⟨hlimited, hunexpired, hstarted, haddressed⟩
    refine ⟨⟨hlimited, hunexpired, hstarted, nofun⟩, ?_⟩
    cases haudience : c.audience with
    | none => exact .inl rfl
    | some a => exact .inr ⟨a, haudience, haddressed wanted rfl a haudience⟩
  · rintro ⟨⟨hlimited, hunexpired, hstarted, -⟩, haudience⟩
    refine ⟨hlimited, hunexpired, hstarted, ?_⟩
    rintro _ ⟨rfl⟩ a ha
    rcases haudience with hnone | ⟨a', ha', hnames⟩
    · rw [hnone] at ha
      cases ha
    · rw [ha'] at ha
      cases ha
      exact hnames

theorem Rules.verify_current_iff :
    (Rules.current (some wanted)).verify key now token = .ok c ↔
      (Rules.current none).verify key now token = .ok c ∧ (c.audience = none ∨ c.Names wanted) := by
  rw [verify_eq_ok_iff, verify_eq_ok_iff, passes_current_iff, ← and_assoc]
  rfl

/-- The authority with the current rules under an audience, if one is given. -/
def Authority.under (a : Authority) (audience : Option String) : Authority :=
  { a with rules := VerifierKind.current.rules audience }

/-- **A configured audience binds only the tokens that have an audience.** A verifier and an authority accept
with it what they accept without it, less the tokens that name others only; a token without an
audience stays accepted. -/
theorem audience_enforced_where_present (a : Authority) (wanted : String) (now : Int) (token : String)
    (cls : TokenClass) (binding : Option String) (c : Claims) :
    (∀ key, (Rules.current (some wanted)).verify key now token = .ok c ↔
      (Rules.current none).verify key now token = .ok c ∧ (c.audience = none ∨ c.Names wanted)) ∧
    (((a.under (some wanted)).verify now token cls binding).1 = .ok c ↔
      ((a.under none).verify now token cls binding).1 = .ok c ∧ (c.audience = none ∨ c.Names wanted)) := by
  refine ⟨fun key => Rules.verify_current_iff, ?_⟩
  rw [Authority.verify_fst_eq_ok_iff, Authority.verify_fst_eq_ok_iff]
  constructor
  · rintro ⟨kid, key, hscreen, hresolve, hverify⟩
    obtain ⟨hverify, haudience⟩ := Rules.verify_current_iff.mp hverify
    exact ⟨⟨kid, key, hscreen, hresolve, hverify⟩, haudience⟩
  · rintro ⟨⟨kid, key, hscreen, hresolve, hverify⟩, haudience⟩
    exact ⟨kid, key, hscreen, hresolve, Rules.verify_current_iff.mpr ⟨hverify, haudience⟩⟩

theorem decodeSegment_of_any {segment : String} {test : Bytes → Bool}
    (h : (Base64.decode .url segment).toOption.any test = true) :
    ∃ b, decodeSegment segment = .ok b ∧ test b = true ∧ '.' ∉ segment.toList := by
  unfold decodeSegment
  cases hdecode : Base64.decode .url segment with
  | error e => rw [hdecode] at h; cases h
  | ok b =>
    rw [hdecode] at h
    exact ⟨b, rfl, h, Base64.dot_notMem_of_decode hdecode⟩

/-- A token is signed when each of its segments reads as it should, which can be evaluated segment by segment. -/
theorem Signed.of_segments {hashes : List Rsa.Hash} {hash : Rsa.Hash} {header payload signature : String}
    (algorithm : String) (hrsa : key.isRsa = true)
    (hhash : (hashOfAlgorithm? algorithm).filter hashes.contains = some hash)
    (hheader : (Base64.decode .url header).toOption.any (readAlgorithm · == some algorithm) = true)
    (hpayload : (Base64.decode .url payload).toOption.any (readChecked · == some c) = true)
    (hsignature : (Base64.decode .url signature).toOption.any (fun b => key.rsa?.any fun k =>
      k.verify hash (Bytes.ofText (header ++ "." ++ payload)) b) = true) :
    Signed hashes key (header ++ "." ++ payload ++ "." ++ signature) c := by
  obtain ⟨headerBytes, hheader, halgorithm, -⟩ := decodeSegment_of_any hheader
  obtain ⟨payloadBytes, hpayload, hclaims, hpart⟩ := decodeSegment_of_any hpayload
  obtain ⟨signatureBytes, hsignature, hgenuine, hlast⟩ := decodeSegment_of_any hsignature
  exact ⟨hrsa, splitLast_append hlast, splitLast_append hpart, hheader, beq_iff_eq.mp halgorithm, hhash, hsignature,
    hgenuine, hpayload, beq_iff_eq.mp hclaims⟩

/-- Modulus of an issuer's key, as its key set publishes it. -/
def issuerModulus : String :=
  "nwEllKzBJnAz2Dh56lrWj7aRkviCKC858NvjL7C40GOuNAnNdNj8sPOTUfUf8bxUAOsN7LE7MQpI5CoYx0PcPD" ++
    "vypzD7T04jgeiBXOJi2GMfChcjjeknNc8JCGKKvyM2xJaMmvmjZM0rV8uuoozk9779bH25f4663RHW4pfZsvcv" ++
    "gkZ2BnR2R0JhjarnJdHUd9P1B6UcFAT7peq_a1cgzLeE8ATnGRDjAO3w-xQIoglLPBuZqDtkMThkB_AWHc93ZE" ++
    "lCLnpet2XKOPG-0azLLfM9Saq31qrep2oKQ9dv3F_nsmX1WmE5sIMPlKPjwj5k9mUf3snI3ZSBXKa47z2tRQ"

def issuerKey : VerificationKey :=
  .rsaParts ((Base64.decode .url issuerModulus).toOption.getD []) [1, 0, 1]

def issuerSignature : String :=
  "l3FMkOVIRbVN68uULY2nKPHWRtE5DHyNdNvEvP-S2l9ipmJR6fR0m7MpYigXjkOL4fEhd4hkEuvMrbIjcpPgsN" ++
    "aR_J4cN90pYJNCq-9A9I02G9ZNYUg91e4L7hUYcHOrsz9zSbDRHUQKVjc63JiJ0aaDkeUXYPbpBcQ0vxSdXPEZ" ++
    "J9glYRvg0k1jQRkHDVksyggwxdLm9hydbN9197dAjV-_EpBiYT8l7vkVZ8iALAdg6B2PvFzzJDtnqbUB2FONuO" ++
    "pq-2nSnh2UX5hNb84xdoGWbOHJksNaCwBhTBmRhLC28GaU7zzNNJJxjw2z-n9wBfIwC_wUjuhc1XGBo-4P0Q"

/-- A header that names the algorithm of the current generation. -/
def issuerHeader : String := "eyJhbGciOiJSUzI1NiIsImtpZCI6IndlYmNvbmZpZ19rZXkifQ"

/-- A payload with a binding and an expiry, and nothing else. -/
def unaddressedPayload : String := "eyJtYWMiOiJhYWJiIiwiZXhwIjoxNzAwMDAwMDYwfQ"

def unaddressedClaims : Claims := { mac := "aabb", expiry := some 1700000060 }

/-- A token of the issuer for no audience in particular. -/
def unaddressedToken : String := issuerHeader ++ "." ++ unaddressedPayload ++ "." ++ issuerSignature

/-- A verifier for an audience accepts it all the same. -/
theorem unaddressedToken_accepted :
    (Rules.current (some "XMiDT")).verify issuerKey 1700000000 unaddressedToken = .ok unaddressedClaims ∧
      ¬ unaddressedClaims.Names "XMiDT" := by
  have hheader : (Base64.decode .url issuerHeader).toOption.any (readAlgorithm · == some "RS256") = true := by
    decide +kernel
  have hpayload : (Base64.decode .url unaddressedPayload).toOption.any
      (readChecked · == some unaddressedClaims) = true := by
    decide +kernel
  have hsignature : (Base64.decode .url issuerSignature).toOption.any (fun b => issuerKey.rsa?.any fun k =>
      k.verify .sha256 (Bytes.ofText (issuerHeader ++ "." ++ unaddressedPayload)) b) = true := by
    decide +kernel
  obtain ⟨headerBytes, hheader, halgorithm, -⟩ := decodeSegment_of_any hheader
  obtain ⟨payloadBytes, hpayload, hclaims, hpart⟩ := decodeSegment_of_any hpayload
  obtain ⟨signatureBytes, hsignature, hgenuine, hlast⟩ := decodeSegment_of_any hsignature
  constructor
  · rw [Rules.verify_eq_ok_iff]
    exact ⟨⟨rfl, splitLast_append hlast, splitLast_append hpart, hheader, beq_iff_eq.mp halgorithm, rfl, hsignature,
      hgenuine, hpayload, beq_iff_eq.mp hclaims⟩, Rules.check_eq_ok_iff.mp rfl⟩
  · rintro ⟨a, ha, -⟩
    cases ha

end DeviceTrust.Token
