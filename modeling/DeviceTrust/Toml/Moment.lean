import DeviceTrust.Toml.Number

/-!
# Moments of a settings document

A date, a time of day, or a date and a time with or without an offset. The spelling that is
kept has a `T` before the time, no idle zeros in the fraction of a second, and no more than nine
digits of it.
-/

namespace DeviceTrust.Toml

def twoDigits? (low high : Nat) (p q : Char) : Option Nat :=
  let n := ofDigits 10 [p, q]
  if p.isDigit && q.isDigit && low ≤ n && n ≤ high then some n else none

def daysIn (year month : Nat) : Nat :=
  if month = 2 then
    if year % 4 = 0 ∧ (year % 100 ≠ 0 ∨ year % 400 = 0) then 29 else 28
  else if [4, 6, 9, 11].contains month then 30
  else 31

def readDate : List Char → Option (List Char × List Char)
  | a :: b :: c :: d :: '-' :: m :: n :: '-' :: x :: y :: rest =>
    if [a, b, c, d].all Char.isDigit then
      match twoDigits? 1 12 m n with
      | some month =>
        (twoDigits? 1 (daysIn (ofDigits 10 [a, b, c, d]) month) x y).map fun _ =>
          ([a, b, c, d, '-', m, n, '-', x, y], rest)
      | none => none
    else none
  | _ => none

/-- The part of the digits of a fraction that counts. -/
def fractionText (digits : List Char) : List Char :=
  match ((digits.take 9).reverse.dropWhile (· == '0')).reverse with
  | [] => []
  | ds => '.' :: ds

def readTime : List Char → Option (List Char × List Char)
  | h :: k :: ':' :: m :: n :: ':' :: s :: t :: rest => do
    let _ ← twoDigits? 0 23 h k
    let _ ← twoDigits? 0 59 m n
    let _ ← twoDigits? 0 60 s t
    let (fraction, left) := match rest with
      | '.' :: more =>
        match more.takeWhile Char.isDigit with
        | [] => ([], rest)
        | ds => (fractionText ds, more.dropWhile Char.isDigit)
      | _ => ([], rest)
    return ([h, k, ':', m, n, ':', s, t] ++ fraction, left)
  | _ => none

def readOffset : List Char → List Char × List Char
  | 'Z' :: rest | 'z' :: rest => (['Z'], rest)
  | sign :: h :: k :: ':' :: m :: n :: rest =>
    if (sign == '+' || sign == '-') && (twoDigits? 0 23 h k).isSome && (twoDigits? 0 59 m n).isSome then
      let sign := if [h, k, m, n].all (· == '0') then '+' else sign
      ([sign, h, k, ':', m, n], rest)
    else ([], sign :: h :: k :: ':' :: m :: n :: rest)
  | input => ([], input)

def readTimeAfterDate : List Char → List Char × List Char
  | c :: rest =>
    if c = 'T' ∨ c = 't' ∨ c = ' ' then
      match readTime rest with
      | some (time, left) =>
        let (offset, left) := readOffset left
        ('T' :: time ++ offset, left)
      | none => ([], c :: rest)
    else ([], c :: rest)
  | [] => ([], [])

def readMoment (input : List Char) : Option (String × List Char) :=
  match readDate input with
  | some (date, rest) =>
    let (time, left) := readTimeAfterDate rest
    some (String.ofList (date ++ time), left)
  | none => (readTime input).map fun (time, left) => (String.ofList time, left)

end DeviceTrust.Toml
