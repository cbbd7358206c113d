import DeviceTrust.Bytes

/-!
# Strings between quotes

A text is written with a backslash before a quote and a backslash, short names for five
controls, and `\u00xx` for the others. Reading takes these and every other escape of the
grammar; a surrogate must come with its partner and the bytes must be UTF-8.
-/

namespace DeviceTrust.Json

def escapeByte (b : UInt8) : Bytes :=
  if b = 0x22 then [0x5c, 0x22]
  else if b = 0x5c then [0x5c, 0x5c]
  else if b = 0x08 then [0x5c, 0x62]
  else if b = 0x09 then [0x5c, 0x74]
  else if b = 0x0a then [0x5c, 0x6e]
  else if b = 0x0c then [0x5c, 0x66]
  else if b = 0x0d then [0x5c, 0x72]
  else if b < 0x20 then
    [0x5c, 0x75, 0x30, 0x30] ++ (Bytes.hexByte b).map fun c => UInt8.ofNat c.toNat
  else [b]

def spell (s : String) : Bytes := (Bytes.ofText s).flatMap escapeByte

def hexValue? (b : UInt8) : Option Nat := Bytes.hexValue? (Char.ofNat b.toNat)

def hex4? (a b c d : UInt8) : Option Nat := do
  let a ← hexValue? a
  let b ← hexValue? b
  let c ← hexValue? c
  let d ← hexValue? d
  return ((a * 16 + b) * 16 + c) * 16 + d

/-- The byte that a one-letter escape stands for. -/
def shortEscape? (b : UInt8) : Option UInt8 :=
  if b = 0x22 then some 0x22
  else if b = 0x5c then some 0x5c
  else if b = 0x2f then some 0x2f
  else if b = 0x62 then some 0x08
  else if b = 0x66 then some 0x0c
  else if b = 0x6e then some 0x0a
  else if b = 0x72 then some 0x0d
  else if b = 0x74 then some 0x09
  else none

def codePointBytes (n : Nat) : Bytes := Bytes.ofText (String.singleton (Char.ofNat n))

def unspellBytes : Bytes → Option Bytes
  | [] => some []
  | b :: rest =>
    if b = 0x5c then
      match rest with
      | [] => none
      | e :: after =>
        if e = 0x75 then
          match after with
          | p :: q :: r :: s :: tail =>
            match hex4? p q r s with
            | none => none
            | some n =>
              if 0xDC00 ≤ n ∧ n < 0xE000 then none
              else if 0xD800 ≤ n ∧ n < 0xDC00 then
                match tail with
                | x :: u :: p' :: q' :: r' :: s' :: tail' =>
                  match hex4? p' q' r' s' with
                  | none => none
                  | some m =>
                    if x = 0x5c ∧ u = 0x75 ∧ 0xDC00 ≤ m ∧ m < 0xE000 then
                      (unspellBytes tail').map
                        (codePointBytes (0x10000 + (n - 0xD800) * 0x400 + (m - 0xDC00)) ++ ·)
                    else none
                | _ => none
              else (unspellBytes tail).map (codePointBytes n ++ ·)
          | _ => none
        else match shortEscape? e with
          | none => none
          | some c => (unspellBytes after).map (c :: ·)
    else (unspellBytes rest).map (b :: ·)

def unspell (spelling : Bytes) : Option String := (unspellBytes spelling).bind Bytes.text?

end DeviceTrust.Json
