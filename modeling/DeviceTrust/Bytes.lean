/-!
# Byte strings

Secrets, digests, signatures and documents are lists of bytes. This module holds
the conversions that the rest of the library shares: hexadecimal text, big-endian
numbers, UTF-8 text and cutting into blocks. Nothing here knows what the bytes mean.
-/

namespace DeviceTrust

abbrev Bytes := List UInt8

namespace Bytes

def ofText (s : String) : Bytes := s.toUTF8.data.toList

/-- The text that the bytes encode, if they are well-formed UTF-8. -/
def text? (b : Bytes) : Option String := String.fromUTF8? ⟨b.toArray⟩

/-- Lower-case hexadecimal digit of a number below sixteen. -/
def hexDigit (n : Nat) : Char := "0123456789abcdef".toList.getD n '0'

def hexByte (b : UInt8) : List Char := [hexDigit (b.toNat / 16), hexDigit (b.toNat % 16)]

/-- Lower-case hexadecimal text, two digits a byte. -/
def toHex (b : Bytes) : String := String.ofList (b.flatMap hexByte)

/-- Value of a hexadecimal digit of either case. -/
def hexValue? (c : Char) : Option Nat :=
  if '0' ≤ c ∧ c ≤ '9' then some (c.toNat - '0'.toNat)
  else if 'a' ≤ c ∧ c ≤ 'f' then some (c.toNat - 'a'.toNat + 10)
  else if 'A' ≤ c ∧ c ≤ 'F' then some (c.toNat - 'A'.toNat + 10)
  else none

/-- Reads hexadecimal digits in pairs; an odd digit or a foreign character is refused. -/
def ofHexDigits? : List Char → Option Bytes
  | [] => some []
  | [_] => none
  | a :: b :: rest => do
    let hi ← hexValue? a
    let lo ← hexValue? b
    let tail ← ofHexDigits? rest
    return UInt8.ofNat (hi * 16 + lo) :: tail

def ofHex? (s : String) : Option Bytes := ofHexDigits? s.toList

/-- Big-endian value. -/
def toNat (b : Bytes) : Nat := b.foldl (fun acc x => acc * 256 + x.toNat) 0

/-- The last `width` big-endian bytes of a number. -/
def ofNat (width n : Nat) : Bytes :=
  (List.range width).reverse.map fun i => UInt8.ofNat (n >>> (8 * i))

/-- Bytewise exclusive or, as long as the shorter of the two. -/
def xor (a b : Bytes) : Bytes := List.zipWith (· ^^^ ·) a b

/-- Consecutive blocks of `size` bytes; the last one may be shorter. A size of zero has no blocks. -/
def blocks (size : Nat) (b : Bytes) : List Bytes :=
  if _h : size = 0 ∨ b = [] then []
  else b.take size :: blocks size (b.drop size)
termination_by b.length
decreasing_by
  have : b.length ≠ 0 := fun e => _h (.inr (List.length_eq_zero_iff.mp e))
  simp only [List.length_drop]
  omega

theorem length_ofNat (width n : Nat) : (ofNat width n).length = width := by
  simp [ofNat]

end Bytes

end DeviceTrust
