import DeviceTrust.Json.Spelling
import DeviceTrust.Json.Value

/-!
# Reading JSON

The reader follows the grammar and keeps spellings, so it accepts every document that is
well-formed, whatever its strings and numbers mean and however deep it nests. Each step
takes at least one byte, and the number of bytes bounds the steps.
-/

namespace DeviceTrust.Json

def isBlank (b : UInt8) : Bool := b == 0x20 || b == 0x09 || b == 0x0a || b == 0x0d

def skipBlank (input : Bytes) : Bytes := input.dropWhile isBlank

def isDigit (b : UInt8) : Bool := 0x30 ≤ b && b ≤ 0x39

def readDigits (input : Bytes) : List Nat × Bytes :=
  ((input.takeWhile isDigit).map fun b => b.toNat - 0x30, input.dropWhile isDigit)

/-- Reads the spelling of a string behind its opening quote. -/
def readSpelling : Bytes → Option (Bytes × Bytes)
  | [] => none
  | b :: rest =>
    if b = 0x22 then some ([], rest)
    else if b = 0x5c then
      match rest with
      | [] => none
      | e :: after =>
        if e = 0x75 then
          match after with
          | p :: q :: r :: s :: tail =>
            if (hex4? p q r s).isSome then
              (readSpelling tail).map fun (sp, left) => (b :: e :: p :: q :: r :: s :: sp, left)
            else none
          | _ => none
        else if (shortEscape? e).isSome then
          (readSpelling after).map fun (sp, left) => (b :: e :: sp, left)
        else none
    else if b < 0x20 then none
    else (readSpelling rest).map fun (sp, left) => (b :: sp, left)

/-- Reads the digits of a whole part: a zero stands alone. -/
def readWhole (input : Bytes) : Option (List Nat × Bytes) :=
  match readDigits input with
  | ([], _) => none
  | ([0], rest) => some ([0], rest)
  | (0 :: _ :: _, _) => none
  | (ds, rest) => some (ds, rest)

def readFraction : Bytes → Option (Option (List Nat) × Bytes)
  | 0x2e :: rest =>
    match readDigits rest with
    | ([], _) => none
    | (ds, left) => some (some ds, left)
  | rest => some (none, rest)

def readExponent : Bytes → Option (Option (Bool × List Nat) × Bytes)
  | [] => some (none, [])
  | b :: rest =>
    if b = 0x65 ∨ b = 0x45 then
      let (minus, digits) := match rest with
        | 0x2d :: r => (true, r)
        | 0x2b :: r => (false, r)
        | r => (false, r)
      match readDigits digits with
      | ([], _) => none
      | (ds, left) => some (some (minus, ds), left)
    else some (none, b :: rest)

def readNumber (input : Bytes) : Option (Number × Bytes) := do
  let (negative, body) := match input with
    | 0x2d :: r => (true, r)
    | r => (false, r)
  let (whole, rest) ← readWhole body
  let (fraction, rest) ← readFraction rest
  let (exponent, rest) ← readExponent rest
  return (⟨negative, whole, fraction, exponent⟩, rest)

def readWord (word : String) (input : Bytes) : Option Bytes :=
  let w := Bytes.ofText word
  if input.take w.length = w then some (input.drop w.length) else none

mutual

def readValue : Nat → Bytes → Option (Json × Bytes)
  | 0, _ => none
  | steps + 1, input =>
    match skipBlank input with
    | [] => none
    | b :: rest =>
      if b = 0x22 then (readSpelling rest).map fun (s, left) => (.string s, left)
      else if b = 0x7b then
        match skipBlank rest with
        | 0x7d :: left => some (.object [], left)
        | more => (readMembers steps more).map fun (ms, left) => (.object ms, left)
      else if b = 0x5b then
        match skipBlank rest with
        | 0x5d :: left => some (.array [], left)
        | more => (readItems steps more).map fun (xs, left) => (.array xs, left)
      else if b = 0x6e then (readWord "ull" rest).map fun left => (.null, left)
      else if b = 0x74 then (readWord "rue" rest).map fun left => (.bool true, left)
      else if b = 0x66 then (readWord "alse" rest).map fun left => (.bool false, left)
      else (readNumber (b :: rest)).map fun (n, left) => (.number n, left)

/-- Reads the items of an array up to its closing bracket. -/
def readItems : Nat → Bytes → Option (List Json × Bytes)
  | 0, _ => none
  | steps + 1, input =>
    match readValue steps input with
    | none => none
    | some (v, rest) =>
      match skipBlank rest with
      | 0x5d :: left => some ([v], left)
      | 0x2c :: more => (readItems steps more).map fun (vs, left) => (v :: vs, left)
      | _ => none

/-- Reads the members of an object up to its closing brace. -/
def readMembers : Nat → Bytes → Option (List (Bytes × Json) × Bytes)
  | 0, _ => none
  | steps + 1, input =>
    match skipBlank input with
    | 0x22 :: afterQuote =>
      match readSpelling afterQuote with
      | none => none
      | some (name, rest) =>
        match skipBlank rest with
        | 0x3a :: afterColon =>
          match readValue steps afterColon with
          | none => none
          | some (v, rest) =>
            match skipBlank rest with
            | 0x7d :: left => some ([(name, v)], left)
            | 0x2c :: more =>
              (readMembers steps more).map fun (ms, left) => ((name, v) :: ms, left)
            | _ => none
        | _ => none
    | _ => none

end

/-- Reads a document: one value with nothing but blanks around it. -/
def read (input : Bytes) : Option Json :=
  match readValue (2 * input.length + 2) input with
  | some (v, rest) => if skipBlank rest = [] then some v else none
  | none => none

end DeviceTrust.Json
