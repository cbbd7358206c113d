/-!
# Counts in words of 64 bits

A count is written in decimal digits, of which there is at least one, and a plus may come
before them. Leading zeros do not matter; a count of more than 64 bits is none.
-/

namespace DeviceTrust.Text

def ofDecimal (digits : List Char) : Nat :=
  digits.foldl (fun n c => n * 10 + (c.toNat - '0'.toNat)) 0

def dropPlus : List Char → List Char
  | '+' :: rest => rest
  | cs => cs

def count? (s : String) : Option Nat :=
  let digits := dropPlus s.toList
  if !digits.isEmpty && digits.all Char.isDigit && ofDecimal digits < Nat.pow 2 64 then
    some (ofDecimal digits)
  else none

end DeviceTrust.Text
