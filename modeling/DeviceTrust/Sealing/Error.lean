import DeviceTrust.Base64
import DeviceTrust.Cipher.Chaining
import DeviceTrust.Text.Utf8

/-!
# Why sealing or opening a secret fails

Each constructor is one cause. A cause is *structural* when the sealed text itself is at
fault, *of configuration* when the key is, and neither when the plaintext cannot be sealed
or the cipher does not run.
-/

namespace DeviceTrust.Sealing

inductive Error where
  /-- The key has a length that the cipher does not take. -/
  | keySize (length : Nat)
  | keyEncoding (cause : Base64.Error)
  | encoding (cause : Base64.Error)
  /-- Not even an initialisation vector and one block. -/
  | tooShort (length : Nat)
  | notBlockAligned (length : Nat)
  | residualTooShort (length : Nat)
  | digestMismatch
  | notText (cause : Text.Utf8Fault)
  /-- The plaintext ends in a byte that unpadding would take away. -/
  | ambiguousTail (byte : UInt8)
  | cipher (cause : Chaining.Fault)
  deriving DecidableEq, Repr

namespace Error

def message : Error → String
  | keySize n => s!"invalid key size: expected 16, 24 or 32 bytes, got {n}"
  | keyEncoding e => "invalid key encoding: " ++ e.message
  | encoding e => "invalid base64: " ++ e.message
  | tooShort n => s!"sealed secret too short: {n} bytes"
  | notBlockAligned n => s!"ciphertext length {n} is not a multiple of the block size"
  | residualTooShort n => s!"residual length {n} is shorter than the digest"
  | digestMismatch => "digest mismatch"
  | notText _ => "decrypted secret is not valid UTF-8"
  | ambiguousTail b =>
    "plaintext ends with padding byte 0x" ++ Bytes.toHex [b] ++ " and cannot round-trip"
  | cipher cause => "cipher error: " ++ cause.message

/-- The wordings of what lies beneath an error. -/
def causes : Error → List String
  | encoding e => [e.message]
  | notText fault => [fault.message]
  | _ => []

def isStructural : Error → Bool
  | encoding _ | tooShort _ | notBlockAligned _ | residualTooShort _ | digestMismatch | notText _ => true
  | _ => false

def isConfiguration : Error → Bool
  | keySize _ | keyEncoding _ => true
  | _ => false

end Error

end DeviceTrust.Sealing
