import DeviceTrust.Rsa.Key

/-!
# Verification keys

A key is kept as it was published. Whether it can verify anything is decided when a
signature is checked: only RSA keys can, and only those within `Rsa.verifying`.
-/

namespace DeviceTrust

inductive VerificationKey where
  /-- Modulus and exponent, big-endian. -/
  | rsaParts (modulus exponent : Bytes)
  /-- A DER document that should hold an RSA public key. -/
  | rsaDocument (der : Bytes)
  | ellipticCurve (x y : Bytes)
  | edwards (x : Bytes)
  | secret (bytes : Bytes)
  deriving DecidableEq, Repr

namespace VerificationKey

def isRsa : VerificationKey → Bool
  | rsaParts _ _ | rsaDocument _ => true
  | _ => false

def rsa? : VerificationKey → Option Rsa.PublicKey
  | rsaParts n e => (Rsa.PublicKey.ofParts Rsa.verifying n e).toOption
  | rsaDocument der => do
    let (n, e) ← Rsa.publicParts? der
    (Rsa.PublicKey.ofParts Rsa.verifying n e).toOption
  | _ => none

end VerificationKey

end DeviceTrust
