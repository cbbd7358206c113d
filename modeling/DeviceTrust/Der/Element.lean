import DeviceTrust.Bytes

/-!
# DER documents, read tolerantly

To find the key inside a key file or certificate, the document is read as a tree that
keeps sequences, object identifiers and strings of bits or bytes, and checks the contents
of the other common types without keeping them. Lengths need not be minimal here.
-/

namespace DeviceTrust.Der

/-- An element of a document, as far as the search for a key needs it. -/
inductive Element where
  | sequence (items : List Element)
  | identifier (path : List Nat)
  /-- The whole bytes of a bit string. -/
  | bits (contents : Bytes)
  | octets (contents : Bytes)
  | other

/-- Reads a number in groups of seven bits, all but the last marked by the high bit. -/
def readBase128 (acc : Nat) : Bytes → Option (Nat × Bytes)
  | [] => none
  | b :: rest =>
    let acc := acc * 128 + (b &&& 0x7f).toNat
    if b < 0x80 then some (acc, rest) else readBase128 acc rest

/-- Tag of an element: class, and number. -/
def readTag : Bytes → Option ((Nat × Nat) × Bytes)
  | [] => none
  | t :: rest =>
    let cls := (t >>> 6).toNat
    if t &&& 0x1f = 0x1f then (readBase128 0 rest).map fun (n, left) => ((cls, n), left)
    else some ((cls, (t &&& 0x1f).toNat), rest)

def readAnyLength : Bytes → Option (Nat × Bytes)
  | [] => none
  | n :: rest =>
    if n < 0x80 then some (n.toNat, rest)
    else
      let count := (n &&& 0x7f).toNat
      if 8 < count ∨ rest.length < count then none
      else some (Bytes.toNat (rest.take count), rest.drop count)

/-- The numbers of an object identifier behind its first byte. -/
def readPath : Nat → Bytes → Option (List Nat)
  | _, [] => some []
  | 0, _ => none
  | steps + 1, b => do
    let (n, rest) ← readBase128 0 b
    return n :: (← readPath steps rest)

/-- An object identifier; its first byte holds two numbers. -/
def readIdentifier : Bytes → Option (List Nat)
  | [] => none
  | b :: rest => do
    let n := b.toNat
    let start := if n < 40 then [0, n] else if n < 80 then [1, n - 40] else [2, n - 80]
    return start ++ (← readPath rest.length rest)

def isPrintableByte (b : UInt8) : Bool :=
  let c := Char.ofNat b.toNat
  c.isAlphanum || " '()+,-./:=?".toList.contains c

def twoDigits? (a b : UInt8) : Option Nat :=
  if 0x30 ≤ a ∧ a ≤ 0x39 ∧ 0x30 ≤ b ∧ b ≤ 0x39 then
    some ((a.toNat - 0x30) * 10 + (b.toNat - 0x30))
  else none

def daysIn (year month : Nat) : Nat :=
  if month = 2 then
    if year % 4 = 0 ∧ (year % 100 ≠ 0 ∨ year % 400 = 0) then 29 else 28
  else if month = 4 ∨ month = 6 ∨ month = 9 ∨ month = 11 then 30 else 31

/-- Whether ten digits are a month, a day, an hour, a minute and a second of a year. -/
def isMoment (year : Nat) : Bytes → Bool
  | [m, m', d, d', h, h', i, i', s, s'] =>
    match twoDigits? m m', twoDigits? d d', twoDigits? h h', twoDigits? i i', twoDigits? s s' with
    | some m, some d, some h, some i, some s =>
      1 ≤ m && m ≤ 12 && 1 ≤ d && d ≤ daysIn year m && h < 24 && i < 60 && s < 60
    | _, _, _, _, _ => false
  | _ => false

/-- A time with a two-digit year, `YYMMDDhhmmssZ`; years from 50 on lie in the last century. -/
def isShortTime (b : Bytes) : Bool :=
  match b with
  | y :: y' :: rest =>
    match twoDigits? y y' with
    | some n => b.length == 13 && isMoment ((if n < 50 then 2000 else 1900) + n) (rest.take 10) &&
        rest.drop 10 == [0x5a]
    | none => false
  | _ => false

/-- A time with a four-digit year, `YYYYMMDDhhmmss`, perhaps a point and up to nine digits, and `Z`. -/
def isLongTime (b : Bytes) : Bool :=
  match b with
  | c :: c' :: y :: y' :: rest =>
    match twoDigits? c c', twoDigits? y y' with
    | some hi, some lo =>
      isMoment (hi * 100 + lo) (rest.take 10) &&
        (match (rest.drop 10).reverse with
          | [0x5a] => true
          | 0x5a :: digits =>
            digits.length ≤ 10 && digits.getLastD 0 == 0x2e &&
              digits.dropLast.all fun d => 0x30 ≤ d && d ≤ 0x39
          | _ => false)
    | _, _ => false
  | _ => false

/-- Checks the contents of a simple element and keeps what the search needs. -/
def readSimple (number : Nat) (contents : Bytes) : Option Element :=
  let guarded (ok : Bool) : Option Element := if ok then some .other else none
  match number with
  | 0x01 => guarded (contents.length == 1)
  | 0x03 =>
    match contents with
    | [] => some (.bits [])
    | unused :: body => if body.length * 8 < unused.toNat then none else some (.bits body)
  | 0x04 => some (.octets contents)
  | 0x06 => (readIdentifier contents).map .identifier
  | 0x0c => guarded (Bytes.text? contents).isSome
  | 0x13 => guarded (contents.all isPrintableByte)
  | 0x14 => guarded (Bytes.text? contents).isSome
  | 0x17 => guarded (isShortTime contents)
  | 0x18 => guarded (isLongTime contents)
  | 0x1c => guarded (Bytes.text? contents).isSome
  | 0x1e => guarded (Bytes.text? contents).isSome
  | _ => some .other

/-- Reads elements up to the end of the input; at least one must be there. -/
def readElements : Nat → Bytes → Option (List Element)
  | 0, _ => none
  | steps + 1, input => do
    let ((cls, number), rest) ← readTag input
    let (length, rest) ← readAnyLength rest
    if rest.length < length then none
    else
      let contents := rest.take length
      let element ←
        if cls ≠ 0 then some .other
        else if number = 0x10 then (readElements steps contents).map .sequence
        else if number = 0x11 then (readElements steps contents).map fun _ => .other
        else readSimple number contents
      match rest.drop length with
      | [] => some [element]
      | more => (readElements steps more).map (element :: ·)

def read (input : Bytes) : Option (List Element) := readElements (input.length + 1) input

mutual

/-- The object identifiers of an element, in order, those inside sequences included. -/
def Element.identifiers : Element → List (List Nat)
  | .identifier path => [path]
  | .sequence items => identifiersIn items
  | _ => []

def identifiersIn : List Element → List (List Nat)
  | [] => []
  | e :: es => e.identifiers ++ identifiersIn es

end

mutual

/-- The strings of bits or bytes of an element, in order, those inside sequences included. -/
def Element.strings : Element → List Bytes
  | .bits b => [b]
  | .octets b => [b]
  | .sequence items => stringsIn items
  | _ => []

def stringsIn : List Element → List Bytes
  | [] => []
  | e :: es => e.strings ++ stringsIn es

end

end DeviceTrust.Der
