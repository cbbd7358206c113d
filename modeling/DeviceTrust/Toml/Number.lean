import DeviceTrust.Double

/-!
# Numbers of a settings document

Whole numbers are decimal with an optional sign, or hexadecimal, octal or binary without
one, and fit 64 signed bits. A decimal does not begin with a zero unless it is one. A real
number has a point, an exponent or both, and digits may be set apart by single underscores.
-/

namespace DeviceTrust.Toml

/-- Value of a digit in bases up to sixteen, in either case. -/
def digitValue (c : Char) : Nat :=
  if c.isDigit then c.toNat - '0'.toNat
  else if 'a' ≤ c.toLower ∧ c.toLower ≤ 'f' then c.toLower.toNat - 'a'.toNat + 10
  else 16

def isDigitOf (base : Nat) (c : Char) : Bool := digitValue c < base

def ofDigits (base : Nat) (digits : List Char) : Nat :=
  digits.foldl (fun n d => n * base + digitValue d) 0

/-- Further digits, each of which an underscore may precede. -/
def moreDigits (base : Nat) : List Char → List Char × List Char
  | [] => ([], [])
  | c :: rest =>
    if c = '_' then
      match rest with
      | [] => ([], ['_'])
      | d :: left =>
        if isDigitOf base d then
          let (ds, left) := moreDigits base left
          (d :: ds, left)
        else ([], '_' :: d :: left)
    else if isDigitOf base c then
      let (ds, left) := moreDigits base rest
      (c :: ds, left)
    else ([], c :: rest)

def readDigits (base : Nat) : List Char → Option (List Char × List Char)
  | [] => none
  | c :: rest =>
    if isDigitOf base c then
      let (ds, left) := moreDigits base rest
      some (c :: ds, left)
    else none

/-- Reads a sign, if there is one; the answer is whether it is a minus. -/
def readSign : List Char → Bool × List Char
  | '-' :: rest => (true, rest)
  | '+' :: rest => (false, rest)
  | input => (false, input)

/-- Reads the digits of a decimal before a point: a zero stands alone. -/
def readWhole : List Char → Option (List Char × List Char)
  | '0' :: rest => some (['0'], rest)
  | input => readDigits 10 input

def readInteger (input : List Char) : Option (Int × List Char) :=
  let based (base : Nat) (rest : List Char) : Option (Int × List Char) :=
    match readDigits base rest with
    | none => none
    | some (ds, left) =>
      let n := ofDigits base ds
      if n < Nat.pow 2 63 then some (n, left) else none
  match input with
  | '0' :: 'x' :: rest => based 16 rest
  | '0' :: 'o' :: rest => based 8 rest
  | '0' :: 'b' :: rest => based 2 rest
  | _ =>
    let (negative, rest) := readSign input
    match readWhole rest with
    | none => none
    | some (ds, left) =>
      let n := ofDigits 10 ds
      if negative then if n ≤ Nat.pow 2 63 then some (-(n : Int), left) else none
      else if n < Nat.pow 2 63 then some (n, left) else none

def readFraction : List Char → Option (List Char × List Char)
  | '.' :: rest => readDigits 10 rest
  | rest => some ([], rest)

def readExponent : List Char → Option (Int × List Char)
  | [] => some (0, [])
  | c :: rest =>
    if c = 'e' ∨ c = 'E' then
      let (negative, rest) := readSign rest
      match readDigits 10 rest with
      | none => none
      | some (ds, left) =>
        let n : Int := ofDigits 10 ds
        some (if negative then -n else n, left)
    else some (0, c :: rest)

/-- Whether `n` times a power of ten is below what rounds to infinity in double precision. -/
def isFinite (n : Nat) (power : Int) : Bool :=
  let digits : Int := (Nat.toDigits 10 n).length
  if n = 0 ∨ digits + power ≤ 308 then true
  else if 310 < digits + power then false
  else if 0 ≤ power then n * Nat.pow 10 power.toNat < Double.limit
  else n < Double.limit * Nat.pow 10 (-power).toNat

def dropWord? (word : String) (input : List Char) : Option (List Char) :=
  if input.take word.length = word.toList then some (input.drop word.length) else none

/-- Drops a real number. One that is too great is refused, unless it has a minus. -/
def dropReal? (input : List Char) : Option (List Char) := do
  let (negative, rest) := readSign input
  match (dropWord? "inf" rest).orElse fun _ => dropWord? "nan" rest with
  | some left => some left
  | none =>
    let (whole, afterWhole) ← readWhole rest
    let (fraction, afterFraction) ← readFraction afterWhole
    let (exponent, left) ← readExponent afterFraction
    if left.length = afterWhole.length then none
    else if negative || isFinite (ofDigits 10 (whole ++ fraction)) (exponent - fraction.length) then
      some left
    else none

end DeviceTrust.Toml
