import DeviceTrust.Cipher.Aes

/-!
# Cipher block chaining

Each block is combined with the ciphertext block before it, the first one with the
initialisation vector. Whole blocks only: padding is the business of the caller, and
`run` refuses a key, a vector or a text that does not have the length it must have.
-/

namespace DeviceTrust.Chaining

open Aes

/-- Enciphers blocks, each combined with the ciphertext before it. -/
def encipherBlocks (keys : List Block) : Block → List Block → List Block
  | _, [] => []
  | previous, b :: rest =>
    let c := encipher keys (b.xor previous)
    c :: encipherBlocks keys c rest

/-- Deciphers blocks, each combined with the ciphertext before it. -/
def decipherBlocks (keys : List Block) : Block → List Block → List Block
  | _, [] => []
  | previous, c :: rest => (decipher keys c).xor previous :: decipherBlocks keys c rest

def toBlocks (b : Bytes) : List Block := (Bytes.blocks 16 b).map Block.ofBytes

def ofBlocks (bs : List Block) : Bytes := bs.flatMap Block.toBytes

def encipherBytes (key iv plain : Bytes) : Bytes :=
  ofBlocks (encipherBlocks (roundKeys key) (Block.ofBytes iv) (toBlocks plain))

def decipherBytes (key iv sealedBytes : Bytes) : Bytes :=
  ofBlocks (decipherBlocks (roundKeys key) (Block.ofBytes iv) (toBlocks sealedBytes))

inductive Direction where
  | encipher
  | decipher
  deriving DecidableEq, Repr

def Direction.apply : Direction → Bytes → Bytes → Bytes → Bytes
  | encipher => encipherBytes
  | decipher => decipherBytes

inductive Fault where
  /-- The key or the initialisation vector does not have the length that the cipher takes. -/
  | length
  /-- The text is no whole number of blocks. -/
  | partialBlock (direction : Direction)
  deriving DecidableEq, Repr

def Fault.message : Fault → String
  | length => "cipher init failed: Invalid Length"
  | partialBlock .encipher => "encryption failed: PadError"
  | partialBlock .decipher => "decryption failed: UnpadError"

/-- Runs the cipher that takes keys of `keyLength` bytes. -/
def run (d : Direction) (keyLength : Nat) (key iv text : Bytes) : Except Fault Bytes :=
  if key.length ≠ keyLength ∨ iv.length ≠ 16 then .error .length
  else if text.length % 16 ≠ 0 then .error (.partialBlock d)
  else .ok (d.apply key iv text)

theorem run_eq_ok {d : Direction} {keyLength : Nat} {key iv text : Bytes}
    (hkey : key.length = keyLength) (hiv : iv.length = 16) (htext : text.length % 16 = 0) :
    run d keyLength key iv text = .ok (d.apply key iv text) := by
  simp [run, hkey, hiv, htext]

end DeviceTrust.Chaining
