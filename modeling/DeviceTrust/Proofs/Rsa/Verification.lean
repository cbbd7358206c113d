import DeviceTrust.KeySet.Key
import DeviceTrust.Proofs.Rsa.Signing

/-!
# What a verified signature is

Verification takes the public power by squaring and compares bytes. Said in numbers, it accepts the
signatures whose public power is the encoded message modulo the modulus, provided that they are written in
as many bytes as the modulus and are less than it. Nothing is asked of the key but what is checked when it
is read.
-/

namespace DeviceTrust.Rsa

variable {k : PublicKey} {limits : Limits} {modulus exponent : Bytes} {hash : Hash} {message signature : Bytes}

/-- The signature belongs to the message, by PKCS #1 v1.5 with the digest. -/
structure PublicKey.Signs (k : PublicKey) (hash : Hash) (message signature : Bytes) : Prop where
  length_eq : signature.length = k.size
  lt_modulus : Bytes.toNat signature < k.modulus
  power : Bytes.toNat signature ^ k.exponent ≡ Bytes.toNat (encodeMessage hash k.size message) [MOD k.modulus]

theorem PublicKey.minExponent_le_of_ofParts (h : ofParts limits modulus exponent = .ok k) :
    limits.minExponent ≤ k.exponent := by
  unfold ofParts at h
  repeat' split at h
  all_goals cases h
  exact Nat.not_lt.mp ‹¬ _ < limits.minExponent›

theorem PublicKey.ne_nil_of_verify (h : k.verify hash message signature = true) : signature ≠ [] := by
  rintro rfl
  simp [verify, Bytes.toNat] at h

/-- **A signature is verified where its public power is the encoded message.** -/
theorem PublicKey.verify_iff (hsize : 256 ≤ k.size) (hexponent : 0 < k.exponent) :
    k.verify hash message signature = true ↔ k.Signs hash message signature := by
  obtain ⟨hpos, hsmall⟩ := toNat_encodeMessage hash message hsize
  have hbelow : Bytes.toNat (encodeMessage hash k.size message) < k.modulus :=
    Nat.lt_of_lt_of_le hsmall (k.le_modulus (by omega))
  have hencoded := Bytes.ofNat_toNat (encodeMessage hash k.size message)
  rw [length_encodeMessage hash message hsize] at hencoded
  simp only [verify, powMod_eq, Bool.and_eq_true, beq_iff_eq, bne_iff_ne, decide_eq_true_eq]
  constructor
  · rintro ⟨⟨⟨hlength, hlt⟩, -⟩, hbytes⟩
    refine ⟨hlength, hlt, ?_⟩
    have hfits : Bytes.toNat signature ^ k.exponent % k.modulus < 256 ^ k.size :=
      Nat.lt_trans (Nat.mod_lt _ (Nat.zero_lt_of_lt hlt)) k.modulus_lt
    rw [← hbytes, Bytes.toNat_ofNat, Nat.mod_eq_of_lt hfits]
    exact (Nat.mod_modEq _ _).symm
  · rintro ⟨hlength, hlt, hpower⟩
    have hresidue : Bytes.toNat signature ^ k.exponent % k.modulus =
        Bytes.toNat (encodeMessage hash k.size message) := by
      rw [show _ % _ = _ % _ from hpower, Nat.mod_eq_of_lt hbelow]
    refine ⟨⟨⟨hlength, hlt⟩, ?_⟩, hresidue ▸ hencoded⟩
    -- an encoded message is not zero, so it is no power of zero
    intro hzero
    rw [hzero, zero_pow hexponent.ne', Nat.zero_mod] at hresidue
    omega

end DeviceTrust.Rsa

namespace DeviceTrust.VerificationKey

variable {key : VerificationKey} {k : Rsa.PublicKey}

/-- An RSA key in use was read from a modulus and an exponent within the limits. -/
theorem ofParts_of_rsa? (h : key.rsa? = some k) :
    ∃ modulus exponent, Rsa.PublicKey.ofParts Rsa.verifying modulus exponent = .ok k := by
  cases key with
  | rsaParts modulus exponent => exact ⟨modulus, exponent, toOption_eq_some.mp h⟩
  | rsaDocument der =>
    obtain ⟨⟨modulus, exponent⟩, -, h⟩ := Option.bind_eq_some_iff.mp h
    exact ⟨modulus, exponent, toOption_eq_some.mp h⟩
  | ellipticCurve x y => cases h
  | edwards x => cases h
  | secret bytes => cases h

theorem verify_iff_of_rsa? (h : key.rsa? = some k) {hash : Rsa.Hash} {message signature : Bytes} :
    k.verify hash message signature = true ↔ k.Signs hash message signature := by
  obtain ⟨modulus, exponent, h⟩ := ofParts_of_rsa? h
  have hexponent := Rsa.PublicKey.minExponent_le_of_ofParts h
  exact Rsa.PublicKey.verify_iff (Rsa.PublicKey.size_of_ofParts h) (Nat.lt_of_lt_of_le (by decide) hexponent)

end DeviceTrust.VerificationKey
