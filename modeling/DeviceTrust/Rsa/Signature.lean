import DeviceTrust.Digest.Sha2
import DeviceTrust.Rsa.Key

/-!
# RSA signatures

A message is signed by raising its encoded digest to the private exponent, and verified by
raising the signature to the public one and comparing the result with the encoded digest,
byte for byte. A signature that does not verify is never handed out, so what `sign` returns
satisfies `verify` by construction.
-/

namespace DeviceTrust.Rsa

/-- The digests that RSA signatures are made over. -/
inductive Hash where
  | sha256
  | sha384
  | sha512
  deriving DecidableEq, Repr

def Hash.digest : Hash → Bytes → Bytes
  | sha256 => Digest.Sha2.sha256
  | sha384 => Digest.Sha2.sha384
  | sha512 => Digest.Sha2.sha512

/-- The header that names the digest in an encoded message. -/
def Hash.header : Hash → Bytes
  | sha256 => [0x30, 0x31, 0x30, 0x0d, 0x06, 0x09, 0x60, 0x86, 0x48, 0x01, 0x65, 0x03, 0x04, 0x02, 0x01,
      0x05, 0x00, 0x04, 0x20]
  | sha384 => [0x30, 0x41, 0x30, 0x0d, 0x06, 0x09, 0x60, 0x86, 0x48, 0x01, 0x65, 0x03, 0x04, 0x02, 0x02,
      0x05, 0x00, 0x04, 0x30]
  | sha512 => [0x30, 0x51, 0x30, 0x0d, 0x06, 0x09, 0x60, 0x86, 0x48, 0x01, 0x65, 0x03, 0x04, 0x02, 0x03,
      0x05, 0x00, 0x04, 0x40]

/-- The encoded message of `size` bytes: two marker bytes, ones, a zero, the header and the digest. -/
def encodeMessage (hash : Hash) (size : Nat) (message : Bytes) : Bytes :=
  let tail := hash.header ++ hash.digest message
  [0x00, 0x01] ++ List.replicate (size - tail.length - 3) 0xff ++ [0x00] ++ tail

/-- Raises to a power modulo `m`, by halving the exponent `bits` times. -/
def powModSteps (m : Nat) : Nat → Nat → Nat → Nat → Nat
  | 0, _, _, acc => acc
  | bits + 1, base, e, acc =>
    if e = 0 then acc
    else powModSteps m bits (base * base % m) (e / 2) (if e % 2 = 1 then acc * base % m else acc)

def powMod (base e m : Nat) : Nat := powModSteps m (bitLength e) (base % m) e (1 % m)

/-- Whether a signature belongs to a message. It is as long as the modulus, smaller than it and not zero. -/
def PublicKey.verify (k : PublicKey) (hash : Hash) (message signature : Bytes) : Bool :=
  let s := Bytes.toNat signature
  signature.length == k.size && s < k.modulus && s != 0 &&
    Bytes.ofNat k.size (powMod s k.exponent k.modulus) == encodeMessage hash k.size message

/-- The private power of a number, put together from its powers modulo the two primes. -/
def PrivateKey.power (k : PrivateKey) (m : Nat) : Nat :=
  let a := powMod m k.dP k.p
  let b := powMod m k.dQ k.q
  b + (k.qInv * ((a + k.p - b % k.p) % k.p) % k.p) * k.q

/-- Signs a message, unless the key does not verify what it signs. -/
def PrivateKey.sign (k : PrivateKey) (hash : Hash) (message : Bytes) : Option Bytes :=
  let size := k.publicKey.size
  let signature := Bytes.ofNat size (k.power (Bytes.toNat (encodeMessage hash size message)))
  if k.publicKey.verify hash message signature then some signature else none

theorem PrivateKey.verify_of_sign {k : PrivateKey} {hash : Hash} {message signature : Bytes}
    (h : k.sign hash message = some signature) :
    k.publicKey.verify hash message signature = true := by
  simp only [sign, Option.ite_none_right_eq_some, Option.some.injEq] at h
  exact h.2 ▸ h.1

end DeviceTrust.Rsa
