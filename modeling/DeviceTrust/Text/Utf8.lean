import DeviceTrust.Bytes

/-!
# Where bytes cease to be UTF-8

A fault is named by the bytes before it and, unless the input merely ends in the middle of a
character, by the number of bytes that cannot belong together.
-/

namespace DeviceTrust.Text

structure Utf8Fault where
  start : Nat
  /-- Number of bytes at fault, or nothing if only the end of a character is missing. -/
  length : Option Nat
  deriving DecidableEq, Repr

def Utf8Fault.message (f : Utf8Fault) : String :=
  match f.length with
  | some n => s!"invalid utf-8 sequence of {n} bytes from index {f.start}"
  | none => s!"incomplete utf-8 byte sequence from index {f.start}"

def isContinuation (b : UInt8) : Bool := 0x80 ≤ b && b ≤ 0xbf

/-- Whether a byte may be the second one of a character of three or four bytes. The first byte narrows the
range where some other character would be spelled, a surrogate, or none. -/
def isSecond (first b : UInt8) : Bool :=
  (if first = 0xe0 then 0xa0 else if first = 0xf0 then 0x90 else 0x80) ≤ b &&
    b ≤ (if first = 0xed then 0x9f else if first = 0xf4 then 0x8f else 0xbf)

/-- The first fault behind `start` bytes. At the end of well-formed bytes there is only an end. -/
def utf8FaultFrom (start : Nat) : Bytes → Utf8Fault
  | [] => ⟨start, none⟩
  | b :: rest =>
    if b < 0x80 then utf8FaultFrom (start + 1) rest
    else if 0xc2 ≤ b && b ≤ 0xdf then
      match rest with
      | [] => ⟨start, none⟩
      | c :: rest => if isContinuation c then utf8FaultFrom (start + 2) rest else ⟨start, some 1⟩
    else if 0xe0 ≤ b && b ≤ 0xef then
      match rest with
      | [] => ⟨start, none⟩
      | c :: rest =>
        if !isSecond b c then ⟨start, some 1⟩
        else match rest with
          | [] => ⟨start, none⟩
          | d :: rest => if isContinuation d then utf8FaultFrom (start + 3) rest else ⟨start, some 2⟩
    else if 0xf0 ≤ b && b ≤ 0xf4 then
      match rest with
      | [] => ⟨start, none⟩
      | c :: rest =>
        if !isSecond b c then ⟨start, some 1⟩
        else match rest with
          | [] => ⟨start, none⟩
          | d :: rest =>
            if !isContinuation d then ⟨start, some 2⟩
            else match rest with
              | [] => ⟨start, none⟩
              | e :: rest =>
                if isContinuation e then utf8FaultFrom (start + 4) rest else ⟨start, some 3⟩
    else ⟨start, some 1⟩

def utf8Fault (b : Bytes) : Utf8Fault := utf8FaultFrom 0 b

end DeviceTrust.Text
