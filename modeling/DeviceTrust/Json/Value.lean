import DeviceTrust.Bytes
import DeviceTrust.Double

/-!
# JSON documents as written

A document is kept as it was written: the text of a string stays in its escaped spelling
and a number in its digits. What a spelling stands for is decided by whoever needs it, so
a part of a document that nobody asks for is held to the grammar and to nothing else.
-/

namespace DeviceTrust

namespace Json

structure Number where
  negative : Bool
  /-- Digits before the point, at least one. -/
  whole : List Nat
  /-- Digits after the point, if there is one. -/
  fraction : Option (List Nat)
  /-- Sign and digits of the exponent, if there is one; the sign is `true` for a minus. -/
  exponent : Option (Bool × List Nat)
  deriving DecidableEq, Repr

end Json

/-- A JSON document as written. The bytes of a string or of a member's name are what stands between the
quotes. -/
inductive Json where
  | null
  | bool (value : Bool)
  | number (value : Json.Number)
  | string (spelling : Bytes)
  | array (items : List Json)
  | object (members : List (Bytes × Json))

namespace Json

def ofDigits (ds : List Nat) : Nat := ds.foldl (fun n d => n * 10 + d) 0

def digitsOf (n : Nat) : List Nat := (Nat.toDigits 10 n).map fun c => c.toNat - '0'.toNat

namespace Number

def ofInt (n : Int) : Number := ⟨n < 0, digitsOf n.natAbs, none, none⟩

/-- The integer, if the number is written as one: no point, no exponent and no minus before a zero, and
within 64 bits, signed or unsigned. -/
def toInt? (n : Number) : Option Int :=
  match n.fraction, n.exponent with
  | none, none =>
    let v := ofDigits n.whole
    if n.negative then if v = 0 ∨ Nat.pow 2 63 < v then none else some (-(v : Int))
    else if v < Nat.pow 2 64 then some v else none
  | _, _ => none

/-- Significand and decimal exponent, with only as many digits as fit 64 bits: a further digit before the
point raises the exponent, and digits after it are dropped. -/
def significand (n : Number) : Nat × Int :=
  let fits (s d : Nat) : Bool := s * 10 + d < Nat.pow 2 64
  let rec wholePart (s : Nat) : List Nat → Nat × Int
    | [] => (s, 0)
    | d :: ds => if fits s d then wholePart (s * 10 + d) ds else (s, ds.length + 1)
  let rec fractionPart (s : Nat) (e : Int) : List Nat → Nat × Int
    | [] => (s, e)
    | d :: ds => if fits s d then fractionPart (s * 10 + d) (e - 1) ds else (s, e)
  let (s, e) := wholePart 0 n.whole
  fractionPart s e (n.fraction.getD [])

/-- Whether the number has a finite value in double precision. An exponent of more than 31 bits counts
as infinite, unless it is negative or the significand is zero. -/
def isFinite (n : Number) : Bool :=
  let (s, e) := n.significand
  if s = 0 then true
  else
    let negative := (n.exponent.map Prod.fst).getD false
    let shift := ofDigits ((n.exponent.map Prod.snd).getD [])
    if negative = true then
      if Nat.pow 2 31 ≤ shift then true else bounded s (e - shift)
    else if Nat.pow 2 31 ≤ shift then false
    else bounded s (e + shift)
where
  bounded (s : Nat) (e : Int) : Bool :=
    if e ≤ 0 then true
    else if 308 < e then false
    else Double.round s * Double.round (Nat.pow 10 e.toNat) < Double.limit

end Number

end Json

end DeviceTrust
