import DeviceTrust.Random
import DeviceTrust.Sealing.Error
import DeviceTrust.Text.Blank

/-!
# Sealing keys

A key is 16, 24 or 32 bytes; its length selects the cipher. Keys travel as standard base64.
-/

namespace DeviceTrust.Sealing

inductive KeySize where
  | aes128
  | aes192
  | aes256
  deriving DecidableEq, Repr

namespace KeySize

def byteLength : KeySize → Nat
  | aes128 => 16
  | aes192 => 24
  | aes256 => 32

def ofLength : Nat → Except Error KeySize
  | 16 => .ok aes128
  | 24 => .ok aes192
  | 32 => .ok aes256
  | n => .error (.keySize n)

def default : KeySize := aes256

def name : KeySize → String
  | aes128 => "Aes128"
  | aes192 => "Aes192"
  | aes256 => "Aes256"

theorem byteLength_ofLength {n : Nat} {size : KeySize} (h : ofLength n = .ok size) :
    n = size.byteLength := by
  unfold ofLength at h
  split at h <;> simp_all [byteLength] <;> subst h <;> rfl

end KeySize

/-- Key bytes of a length that the cipher takes. -/
structure Key where
  bytes : Bytes
  size : KeySize
  length_bytes : bytes.length = size.byteLength

namespace Key

def ofBytes (b : Bytes) : Except Error Key :=
  match h : KeySize.ofLength b.length with
  | .ok size => .ok ⟨b, size, KeySize.byteLength_ofLength h⟩
  | .error e => .error e

/-- Reads a key from standard base64, blank characters around it aside. -/
def ofBase64 (text : String) : Except Error Key :=
  match Base64.decode .standard (Text.trim text) with
  | .ok b => ofBytes b
  | .error e => .error (.keyEncoding e)

def toBase64 (k : Key) : String := Base64.encode .standard k.bytes

def generate (size : KeySize) (source : RandomSource) : Key × RandomSource :=
  (⟨(source.draw size.byteLength).1, size, RandomSource.length_draw _ _⟩,
    (source.draw size.byteLength).2)

def describe (k : Key) : String :=
  "SymmetricKey \x7b bytes: \"[REDACTED]\", size: " ++ k.size.name ++ " \x7d"

end Key

end DeviceTrust.Sealing
