import DeviceTrust.Der.Strict

/-!
# RSA keys

A public key comes as the bytes of its modulus and exponent, from a key set document, or as
a DER document, from a key file. A private key comes as a DER document only. Both are kept
as they came and examined when they are used: `PublicKey.ofParts` and `PrivateKey.ofDer`
say which ones the library is willing to use.
-/

namespace DeviceTrust.Rsa

def bitLength (n : Nat) : Nat := if n = 0 then 0 else n.log2 + 1

def bytesFor (bits : Nat) : Nat := (bits + 7) / 8

inductive KeyError where
  | encoding
  | version
  | tooSmall
  | tooLarge
  | component
  | inconsistent
  | primeLength
  deriving DecidableEq, Repr

def KeyError.message : KeyError → String
  | encoding => "InvalidEncoding"
  | version => "VersionNotSupported"
  | tooSmall => "TooSmall"
  | tooLarge => "TooLarge"
  | component => "InvalidComponent"
  | inconsistent => "InconsistentComponents"
  | primeLength => "PrivateModulusLenNotMultipleOf512Bits"

/-- A modulus and a public exponent within the limits of their use. -/
structure PublicKey where
  modulus : Nat
  exponent : Nat
  deriving DecidableEq, Repr

def PublicKey.size (k : PublicKey) : Nat := bytesFor (bitLength k.modulus)

/-- Limits on a key: the longest modulus in bits, and the least public exponent. -/
structure Limits where
  maxBits : Nat
  minExponent : Nat

def verifying : Limits := ⟨8192, 3⟩

def signing : Limits := ⟨4096, 65537⟩

/-- Big-endian bytes of a positive number without leading zeros. -/
def positive? (b : Bytes) : Option Nat :=
  match b with
  | [] => none
  | x :: _ => if x = 0 then none else some (Bytes.toNat b)

/-- A public key from its parts: an odd modulus of at least 2048 bits, counted in whole bytes, and an odd
exponent of at most 33 bits. -/
def PublicKey.ofParts (limits : Limits) (modulus exponent : Bytes) : Except KeyError PublicKey :=
  match positive? modulus with
  | none => .error .encoding
  | some n =>
    if n % 2 = 0 then .error .component
    else if bytesFor (bitLength n) < 256 then .error .tooSmall
    else if limits.maxBits < bitLength n then .error .tooLarge
    else if 5 < exponent.length then .error .tooLarge
    else match positive? exponent with
      | none => .error .encoding
      | some e =>
        if e < limits.minExponent then .error .tooSmall
        else if e % 2 = 0 then .error .component
        else if Nat.pow 2 33 ≤ e then .error .tooLarge
        else .ok ⟨n, e⟩

def publicParts? (der : Bytes) : Option (Bytes × Bytes) := do
  let contents ← Der.readOnlySequence der
  let (parts, rest) ← Der.readUnsigneds 2 contents
  match parts, rest with
  | [n, e], [] => if n = [0] ∨ e = [0] then none else some (n, e)
  | _, _ => none

/-- A public key with what it takes to sign by the Chinese remainder theorem. -/
structure PrivateKey where
  publicKey : PublicKey
  p : Nat
  q : Nat
  dP : Nat
  dQ : Nat
  qInv : Nat

/-- Integers of a private key document, version first. -/
def privateParts? (der : Bytes) : Except KeyError (List Bytes) :=
  match Der.readOnlySequence der with
  | none => .error .encoding
  | some contents =>
    match Der.readUnsigned contents with
    | none => .error .encoding
    | some (version, rest) =>
      if version.length ≠ 1 then .error .encoding
      else if version ≠ [0] then .error .version
      else match Der.readUnsigneds 8 rest with
        | some (parts, []) => .ok parts
        | _ => .error .encoding

/-- A prime of a private key: half as long as the modulus, in steps of 512 bits, and odd. -/
def prime? (modulusBits : Nat) (b : Bytes) : Except KeyError Nat :=
  let p := Bytes.toNat b
  if b = [] then .error .encoding
  else if bitLength p ≠ (modulusBits + 1) / 2 then .error .inconsistent
  else if bitLength p % 512 ≠ 0 then .error .primeLength
  else if p % 2 = 0 then .error .component
  else .ok p

/-- Reads a private key and checks that its numbers belong together. -/
def PrivateKey.ofDer (der : Bytes) : Except KeyError PrivateKey := do
  match ← privateParts? der with
  | [n, e, d, p, q, dP, dQ, qInv] =>
    let publicKey ← PublicKey.ofParts signing n e
    let bits := bitLength publicKey.modulus
    let p ← prime? bits p
    let q ← prime? bits q
    let d := Bytes.toNat d
    let dP := Bytes.toNat dP
    let dQ := Bytes.toNat dQ
    let qInv := Bytes.toNat qInv
    if p * q ≠ publicKey.modulus then throw .inconsistent
    if bitLength d ≤ (bits + 1) / 2 ∨ publicKey.modulus ≤ d then throw .inconsistent
    if d % 2 = 0 then throw .component
    if p ≤ dP ∨ dP % 2 = 0 ∨ q ≤ dQ ∨ dQ % 2 = 0 then throw .inconsistent
    if p ≤ qInv then throw .component
    if qInv * q % p ≠ 1 then throw .inconsistent
    return ⟨publicKey, p, q, dP, dQ, qInv⟩
  | _ => throw .encoding

end DeviceTrust.Rsa
