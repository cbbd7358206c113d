import DeviceTrust.Proofs.Bytes
import DeviceTrust.Proofs.Outcome
import DeviceTrust.Rsa.Signature
import Mathlib.FieldTheory.Finite.Basic

/-!
# A genuine key signs every message

Reading a private key checks that its numbers fit together, but not that the primes are prime
and that the private exponents undo the public one. Of a key for which this holds too, the public
power takes back the private power, by Fermat's little theorem modulo each prime. So the check
that comes before a signature is handed out succeeds, whatever the message.
-/

namespace DeviceTrust.Rsa

variable {k : PrivateKey}

theorem lt_two_pow_bitLength (n : Nat) : n < 2 ^ bitLength n := by
  unfold bitLength
  split
  · omega
  · exact Nat.lt_log2_self

theorem two_pow_le_of_bitLength {n bits : Nat} (h : bits < bitLength n) : 2 ^ bits ≤ n := by
  unfold bitLength at h
  split at h
  · omega
  · rename_i hn
    exact (Nat.le_log2 hn).mp (Nat.le_of_lt_succ h)

theorem PublicKey.modulus_lt (k : PublicKey) : k.modulus < 256 ^ k.size := by
  have hbits : bitLength k.modulus ≤ 8 * k.size := by
    unfold size bytesFor
    omega
  calc k.modulus < 2 ^ bitLength k.modulus := lt_two_pow_bitLength _
    _ ≤ 2 ^ (8 * k.size) := Nat.pow_le_pow_right (by decide) hbits
    _ = 256 ^ k.size := Nat.pow_mul 2 8 _

theorem PublicKey.le_modulus (k : PublicKey) (h : 0 < k.size) : 256 ^ (k.size - 1) ≤ k.modulus := by
  have hbits : 8 * (k.size - 1) < bitLength k.modulus := by
    unfold size bytesFor at *
    omega
  calc 256 ^ (k.size - 1) = 2 ^ (8 * (k.size - 1)) := (Nat.pow_mul 2 8 _).symm
    _ ≤ k.modulus := two_pow_le_of_bitLength hbits

theorem powModSteps_eq {m bits base e acc : Nat} (hbits : e < 2 ^ bits) (hacc : acc % m = acc) :
    powModSteps m bits base e acc = acc * base ^ e % m := by
  induction bits generalizing base e acc with
  | zero =>
    obtain rfl : e = 0 := by omega
    rw [powModSteps, pow_zero, Nat.mul_one, hacc]
  | succ bits ih =>
    rw [powModSteps]
    split
    · rename_i he
      rw [he, pow_zero, Nat.mul_one, hacc]
    · -- the base is squared where the exponent is halved, and the accumulator takes the factor that is left over
      have hhalf : e / 2 < 2 ^ bits := by omega
      have hsquare : (base * base % m) ^ (e / 2) ≡ base ^ (2 * (e / 2)) [MOD m] := by
        rw [pow_mul, pow_two]
        exact (Nat.mod_modEq _ _).pow _
      split
      · rename_i hodd
        have hexp : e = 1 + 2 * (e / 2) := by omega
        rw [ih hhalf (Nat.mod_mod _ _)]
        calc acc * base % m * (base * base % m) ^ (e / 2)
            ≡ acc * base * base ^ (2 * (e / 2)) [MOD m] := (Nat.mod_modEq _ _).mul hsquare
          _ = acc * base ^ (1 + 2 * (e / 2)) := by rw [pow_add, pow_one, Nat.mul_assoc]
          _ = acc * base ^ e := by rw [← hexp]
      · rename_i heven
        have hexp : e = 2 * (e / 2) := by omega
        rw [ih hhalf hacc]
        calc acc * (base * base % m) ^ (e / 2)
            ≡ acc * base ^ (2 * (e / 2)) [MOD m] := hsquare.mul_left _
          _ = acc * base ^ e := by rw [← hexp]

theorem powMod_eq (base e m : Nat) : powMod base e m = base ^ e % m := by
  rw [powMod, powModSteps_eq (lt_two_pow_bitLength e) (Nat.mod_mod _ _)]
  calc 1 % m * (base % m) ^ e ≡ 1 * base ^ e [MOD m] := (Nat.mod_modEq _ _).mul ((Nat.mod_modEq _ _).pow _)
    _ = base ^ e := Nat.one_mul _

theorem pos_of_modEq_one {p e : Nat} (hp : p.Prime) (hodd : p % 2 = 1) (he : e ≡ 1 [MOD p - 1]) : 0 < e := by
  have htwo := hp.two_le
  rcases Nat.eq_zero_or_pos e with rfl | hpos
  · have hone : (1 : Nat) % (p - 1) = 1 := Nat.mod_eq_of_lt (by omega)
    have hzero : 0 % (p - 1) = 1 % (p - 1) := he
    rw [hone, Nat.zero_mod] at hzero
    cases hzero
  · exact hpos

/-- Fermat's little theorem, for exponents that are one up to `p - 1`. -/
theorem pow_modEq_self {p e : Nat} (hp : p.Prime) (hodd : p % 2 = 1) (he : e ≡ 1 [MOD p - 1]) (m : Nat) :
    m ^ e ≡ m [MOD p] := by
  have : Fact p.Prime := ⟨hp⟩
  have hpos : 0 < e := pos_of_modEq_one hp hodd he
  obtain ⟨j, hj⟩ := (Nat.modEq_iff_dvd' hpos).mp he.symm
  have hexp : e = (p - 1) * j + 1 := by omega
  rw [← ZMod.natCast_eq_natCast_iff, Nat.cast_pow]
  by_cases hm : (m : ZMod p) = 0
  · rw [hm, zero_pow (by omega)]
  · rw [hexp, pow_succ, pow_mul, ZMod.pow_card_sub_one_eq_one hm, one_pow, one_mul]

/-- What the numbers of a private key that can be read have to do with each other. -/
structure PrivateKey.Consistent (k : PrivateKey) : Prop where
  modulus_eq : k.p * k.q = k.publicKey.modulus
  p_odd : k.p % 2 = 1
  q_odd : k.q % 2 = 1
  qInv_inverse : k.qInv * k.q ≡ 1 [MOD k.p]
  size_le : 256 ≤ k.publicKey.size

/-- What makes a key an RSA key, and is not checked when it is read. -/
structure PrivateKey.Genuine (k : PrivateKey) : Prop where
  p_prime : k.p.Prime
  q_prime : k.q.Prime
  dP_inverse : k.dP * k.publicKey.exponent ≡ 1 [MOD k.p - 1]
  dQ_inverse : k.dQ * k.publicKey.exponent ≡ 1 [MOD k.q - 1]

theorem PublicKey.size_of_ofParts {limits : Limits} {modulus exponent : Bytes} {key : PublicKey}
    (h : ofParts limits modulus exponent = .ok key) : 256 ≤ key.size := by
  unfold ofParts at h
  repeat' split at h
  all_goals cases h
  exact Nat.not_lt.mp ‹¬ bytesFor _ < 256›

theorem odd_of_prime? {modulusBits p : Nat} {b : Bytes} (h : prime? modulusBits b = .ok p) : p % 2 = 1 := by
  unfold prime? at h
  simp only at h
  repeat' split at h
  all_goals cases h
  omega

theorem PrivateKey.consistent_of_ofDer {der : Bytes} (h : ofDer der = .ok k) : k.Consistent := by
  unfold ofDer at h
  obtain ⟨parts, -, h⟩ := bind_eq_ok.mp h
  split at h
  · obtain ⟨publicKey, hpublic, h⟩ := bind_eq_ok.mp h
    obtain ⟨p, hp, h⟩ := bind_eq_ok.mp h
    obtain ⟨q, hq, h⟩ := bind_eq_ok.mp h
    -- the checks, in their order: only the first and the last one are about a relation that is kept here
    obtain ⟨hmodulus, h⟩ := guard_eq_ok.mp h
    obtain ⟨-, h⟩ := guard_eq_ok.mp h
    obtain ⟨-, h⟩ := guard_eq_ok.mp h
    obtain ⟨-, h⟩ := guard_eq_ok.mp h
    obtain ⟨-, h⟩ := guard_eq_ok.mp h
    obtain ⟨hinverse, h⟩ := guard_eq_ok.mp h
    cases h
    have hone := Decidable.not_not.mp hinverse
    exact {
      modulus_eq := Decidable.not_not.mp hmodulus
      p_odd := odd_of_prime? hp
      q_odd := odd_of_prime? hq
      qInv_inverse := hone ▸ (Nat.mod_modEq _ _).symm
      size_le := PublicKey.size_of_ofParts hpublic }
  · cases h

theorem PrivateKey.power_lt (hp : 0 < k.p) (hq : 0 < k.q) (m : Nat) : k.power m < k.p * k.q := by
  unfold power
  simp only [powMod_eq]
  generalize k.qInv * ((m ^ k.dP % k.p + k.p - m ^ k.dQ % k.q % k.p) % k.p) = h
  have hb : m ^ k.dQ % k.q < k.q := Nat.mod_lt _ hq
  have hh : h % k.p + 1 ≤ k.p := Nat.mod_lt _ hp
  calc m ^ k.dQ % k.q + h % k.p * k.q < k.q + h % k.p * k.q := Nat.add_lt_add_right hb _
    _ = (h % k.p + 1) * k.q := by ring
    _ ≤ k.p * k.q := Nat.mul_le_mul_right _ hh

theorem PrivateKey.power_modEq_q (m : Nat) : k.power m ≡ m ^ k.dQ [MOD k.q] := by
  unfold power
  simp only [powMod_eq]
  exact (Nat.add_mul_mod_self_right _ _ _).trans (Nat.mod_mod _ _)

/-- Garner's recombination: the multiple of `q` that is added makes up for the difference modulo `p`. -/
theorem PrivateKey.power_modEq_p (hk : k.Consistent) (m : Nat) : k.power m ≡ m ^ k.dP [MOD k.p] := by
  unfold power
  simp only [powMod_eq]
  have hodd := hk.p_odd
  have hpos : 0 < k.p := by omega
  generalize m ^ k.dQ % k.q = b
  generalize ha : m ^ k.dP % k.p = a
  have hle : b % k.p ≤ k.p := Nat.le_of_lt (Nat.mod_lt _ hpos)
  calc b + k.qInv * ((a + k.p - b % k.p) % k.p) % k.p * k.q
      ≡ b + k.qInv * (a + k.p - b % k.p) * k.q [MOD k.p] := by
        refine Nat.ModEq.add_left _ (Nat.ModEq.mul_right _ ?_)
        exact (Nat.mod_modEq _ _).trans ((Nat.mod_modEq _ _).mul_left _)
    _ = b + k.qInv * k.q * (a + k.p - b % k.p) := by ring
    _ ≡ b % k.p + 1 * (a + k.p - b % k.p) [MOD k.p] := (Nat.mod_modEq _ _).symm.add (hk.qInv_inverse.mul_right _)
    _ = a + k.p := by omega
    _ ≡ a [MOD k.p] := Nat.add_mod_right _ _
    _ ≡ m ^ k.dP [MOD k.p] := ha ▸ Nat.mod_modEq _ _

theorem PrivateKey.coprime (hk : k.Consistent) : k.p.Coprime k.q :=
  (Nat.coprime_of_mul_modEq_one k.qInv (by rw [Nat.mul_comm]; exact hk.qInv_inverse)).symm

/-- The public power takes the private power back. -/
theorem PrivateKey.powMod_power (hk : k.Consistent) (hg : k.Genuine) {m : Nat} (hm : m < k.publicKey.modulus) :
    powMod (k.power m) k.publicKey.exponent k.publicKey.modulus = m := by
  have hmodP : k.power m ^ k.publicKey.exponent ≡ m [MOD k.p] :=
    calc k.power m ^ k.publicKey.exponent
        ≡ (m ^ k.dP) ^ k.publicKey.exponent [MOD k.p] := (power_modEq_p hk m).pow _
      _ = m ^ (k.dP * k.publicKey.exponent) := (pow_mul ..).symm
      _ ≡ m [MOD k.p] := pow_modEq_self hg.p_prime hk.p_odd hg.dP_inverse m
  have hmodQ : k.power m ^ k.publicKey.exponent ≡ m [MOD k.q] :=
    calc k.power m ^ k.publicKey.exponent
        ≡ (m ^ k.dQ) ^ k.publicKey.exponent [MOD k.q] := (power_modEq_q m).pow _
      _ = m ^ (k.dQ * k.publicKey.exponent) := (pow_mul ..).symm
      _ ≡ m [MOD k.q] := pow_modEq_self hg.q_prime hk.q_odd hg.dQ_inverse m
  -- the primes differ, so what holds modulo both holds modulo their product
  have hmod := (Nat.modEq_and_modEq_iff_modEq_mul (coprime hk)).mp ⟨hmodP, hmodQ⟩
  rw [hk.modulus_eq] at hmod
  rw [powMod_eq, show _ % _ = _ % _ from hmod, Nat.mod_eq_of_lt hm]

theorem Hash.length_digest_le (hash : Hash) (message : Bytes) : (hash.digest message).length ≤ 64 := by
  cases hash with
  | sha256 => rw [digest, Digest.Sha2.length_sha256]; decide
  | sha384 => rw [digest, Digest.Sha2.length_sha384]; decide
  | sha512 => rw [digest, Digest.Sha2.length_sha512]

theorem Hash.length_header (hash : Hash) : hash.header.length = 19 := by
  cases hash <;> rfl

theorem length_encodeMessage (hash : Hash) (message : Bytes) {size : Nat} (h : 256 ≤ size) :
    (encodeMessage hash size message).length = size := by
  have hdigest := hash.length_digest_le message
  simp only [encodeMessage, List.length_append, List.length_cons, List.length_nil, List.length_replicate,
    Hash.length_header]
  omega

/-- An encoded message begins with a zero and a one, so it is less than any number of its length, and not zero. -/
theorem toNat_encodeMessage (hash : Hash) (message : Bytes) {size : Nat} (h : 256 ≤ size) :
    0 < Bytes.toNat (encodeMessage hash size message) ∧
      Bytes.toNat (encodeMessage hash size message) < 256 ^ (size - 1) := by
  obtain ⟨rest, hrest⟩ : ∃ rest, encodeMessage hash size message = 0x00 :: 0x01 :: rest := ⟨_, rfl⟩
  have hlength : rest.length + 2 = size := by
    rw [← length_encodeMessage hash message h, hrest]
    rfl
  have hlow := Bytes.toNat_lt rest
  have hsize : 256 ^ (size - 1) = 256 * 256 ^ rest.length := by
    rw [← pow_succ', ← hlength]
    rfl
  have hzero : (0x00 : UInt8).toNat = 0 := rfl
  have hone : (0x01 : UInt8).toNat = 1 := rfl
  rw [hrest, Bytes.toNat_cons, Bytes.toNat_cons, hsize, hzero, hone]
  omega

/-- **A genuine key signs every message.** -/
theorem PrivateKey.isSome_sign (hk : k.Consistent) (hg : k.Genuine) (hash : Hash) (message : Bytes) :
    (k.sign hash message).isSome = true := by
  have hsize : 256 ≤ k.publicKey.size := hk.size_le
  obtain ⟨hpos, hsmall⟩ := toNat_encodeMessage hash message hsize
  have hlarge := k.publicKey.le_modulus (by omega)
  have hpower := powMod_power hk hg (Nat.lt_of_lt_of_le hsmall hlarge)
  have hencoded := Bytes.ofNat_toNat (encodeMessage hash k.publicKey.size message)
  rw [length_encodeMessage hash message hsize] at hencoded
  generalize hm : Bytes.toNat (encodeMessage hash k.publicKey.size message) = m at *
  have hlt : k.power m < k.publicKey.modulus := hk.modulus_eq ▸ power_lt hg.p_prime.pos hg.q_prime.pos m
  have hread : Bytes.toNat (Bytes.ofNat k.publicKey.size (k.power m)) = k.power m := by
    rw [Bytes.toNat_ofNat, Nat.mod_eq_of_lt (Nat.lt_trans hlt k.publicKey.modulus_lt)]
  have hne : k.power m ≠ 0 := by
    intro hzero
    have hexponent : k.publicKey.exponent ≠ 0 :=
      right_ne_zero_of_mul (pos_of_modEq_one hg.p_prime hk.p_odd hg.dP_inverse).ne'
    rw [hzero, powMod_eq, zero_pow hexponent, Nat.zero_mod] at hpower
    omega
  have hverify : k.publicKey.verify hash message (Bytes.ofNat k.publicKey.size (k.power m)) = true := by
    simp [PublicKey.verify, hread, hlt, hne, hpower, hencoded, Bytes.length_ofNat]
  rw [sign, hm]
  simp [hverify]

end DeviceTrust.Rsa
