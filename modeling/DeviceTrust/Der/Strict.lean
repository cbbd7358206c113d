import DeviceTrust.Bytes

/-!
# Canonical DER

RSA keys are read from their canonical encoding and from no other: one byte for a length
below 128, as few bytes as possible for a longer one, no high tag numbers, and integers
without a superfluous leading zero.
-/

namespace DeviceTrust.Der

def take? (n : Nat) (input : Bytes) : Option (Bytes × Bytes) :=
  if n ≤ input.length then some (input.take n, input.drop n) else none

/-- Reads a length in its shortest form, up to two bytes of it. -/
def readLength : Bytes → Option (Nat × Bytes)
  | [] => none
  | n :: rest =>
    if n < 0x80 then some (n.toNat, rest)
    else if n = 0x81 then
      match rest with
      | a :: rest => if a < 0x80 then none else some (a.toNat, rest)
      | [] => none
    else if n = 0x82 then
      match rest with
      | a :: b :: rest =>
        let length := a.toNat * 256 + b.toNat
        if length < 256 then none else some (length, rest)
      | _ => none
    else none

/-- Reads an element with the given tag and returns its contents and what follows. -/
def readElement (tag : UInt8) : Bytes → Option (Bytes × Bytes)
  | [] => none
  | t :: rest =>
    if t = tag then do
      let (length, rest) ← readLength rest
      take? length rest
    else none

/-- Reads an integer that is not negative and returns its big-endian bytes: a single zero, or no leading
zero. -/
def readUnsigned (input : Bytes) : Option (Bytes × Bytes) := do
  let (contents, rest) ← readElement 0x02 input
  match contents with
  | [] => none
  | [0] => some ([0], rest)
  | 0 :: b :: more => if 0x80 ≤ b then some (b :: more, rest) else none
  | b :: more => if b < 0x80 then some (b :: more, rest) else none

/-- Reads `n` integers that are not negative. -/
def readUnsigneds : Nat → Bytes → Option (List Bytes × Bytes)
  | 0, input => some ([], input)
  | n + 1, input => do
    let (b, rest) ← readUnsigned input
    let (bs, rest) ← readUnsigneds n rest
    return (b :: bs, rest)

/-- Reads a sequence that is all of the input and returns its contents. -/
def readOnlySequence (input : Bytes) : Option Bytes := do
  let (contents, rest) ← readElement 0x30 input
  if rest = [] then some contents else none

end DeviceTrust.Der
