import DeviceTrust.Bytes

/-!
# Base64

Three bytes are written as four symbols of a 64-character alphabet. The standard
alphabet closes the last group with `=`; the URL alphabet writes no padding. Reading
accepts exactly what writing produces: one spelling per byte string. Whatever else
arrives is refused with the first thing that is wrong with it.
-/

namespace DeviceTrust.Base64

/-- The two 64-character alphabets, each with its rule on padding. -/
inductive Alphabet where
  /-- `+` and `/`; the last group is padded to four symbols. -/
  | standard
  /-- `-` and `_`; no padding. -/
  | url
  deriving DecidableEq, Repr

def Alphabet.padded : Alphabet → Bool
  | .standard => true
  | .url => false

def Alphabet.symbol (a : Alphabet) (n : Nat) : UInt8 :=
  if n < 26 then UInt8.ofNat (65 + n)
  else if n < 52 then UInt8.ofNat (97 + (n - 26))
  else if n < 62 then UInt8.ofNat (48 + (n - 52))
  else match a with
    | .standard => if n = 62 then 43 else 47
    | .url => if n = 62 then 45 else 95

def Alphabet.value? (a : Alphabet) (b : UInt8) : Option Nat :=
  let n := b.toNat
  if 65 ≤ n ∧ n ≤ 90 then some (n - 65)
  else if 97 ≤ n ∧ n ≤ 122 then some (n - 97 + 26)
  else if 48 ≤ n ∧ n ≤ 57 then some (n - 48 + 52)
  else match a with
    | .standard => if n = 43 then some 62 else if n = 47 then some 63 else none
    | .url => if n = 45 then some 62 else if n = 95 then some 63 else none

def pad : UInt8 := 61

/-- What is wrong with a text that is no base64. -/
inductive Error where
  /-- A byte outside the alphabet, or padding where none may stand. -/
  | symbol (byte : UInt8) (offset : Nat)
  | length (count : Nat)
  /-- The last symbol carries bits that no byte takes. -/
  | lastSymbol (byte : UInt8) (offset : Nat)
  /-- Padding that is missing, too short or not allowed. -/
  | padding
  deriving DecidableEq, Repr

def Error.message : Error → String
  | .symbol b i => s!"Invalid symbol {b.toNat}, offset {i}."
  | .length n => s!"Invalid input length: {n}"
  | .lastSymbol b i => s!"Invalid last symbol {b.toNat}, offset {i}."
  | .padding => "Invalid padding"

/-- Writes bytes as symbols, three at a time. -/
def encodeBytes (a : Alphabet) : Bytes → Bytes
  | [] => []
  | [x] =>
    let n := x.toNat * 16
    [a.symbol (n / 64), a.symbol (n % 64)] ++ if a.padded then [pad, pad] else []
  | [x, y] =>
    let n := (x.toNat * 256 + y.toNat) * 4
    [a.symbol (n / 4096), a.symbol (n / 64 % 64), a.symbol (n % 64)] ++
      if a.padded then [pad] else []
  | x :: y :: z :: rest =>
    let n := (x.toNat * 256 + y.toNat) * 256 + z.toNat
    a.symbol (n / 262144) :: a.symbol (n / 4096 % 64) :: a.symbol (n / 64 % 64) ::
      a.symbol (n % 64) :: encodeBytes a rest

def encode (a : Alphabet) (b : Bytes) : String :=
  String.ofList ((encodeBytes a b).map fun s => Char.ofNat s.toNat)

/-- Value of the symbol at an offset, or the complaint about it. -/
def valueAt (a : Alphabet) (offset : Nat) (b : UInt8) : Except Error Nat :=
  match a.value? b with
  | some v => .ok v
  | none => .error (.symbol b offset)

/-- What the last group holds: its values, how many padding symbols follow them, and the last symbol. -/
structure LastGroup where
  values : List Nat
  padding : Nat
  lastSymbol : UInt8

/-- Reads the symbols of the last group from left to right. Padding may start at its third place, and
no symbol may follow it. -/
def readLastGroup (a : Alphabet) (offset : Nat) : Nat → LastGroup → Bytes → Except Error LastGroup
  | _, g, [] => .ok g
  | i, g, b :: rest =>
    if b = pad then
      if i < 2 then .error (.symbol b (offset + i))
      else readLastGroup a offset (i + 1) { g with padding := g.padding + 1 } rest
    else if g.padding > 0 then .error (.symbol pad (offset + i - g.padding))
    else do
      let v ← valueAt a (offset + i) b
      readLastGroup a offset (i + 1) { g with values := g.values ++ [v], lastSymbol := b } rest

/-- Bytes of the last group. Its padding must be what writing would have put there, and the bits that no
byte takes must be zero. -/
def finishGroup (a : Alphabet) (offset : Nat) (g : LastGroup) : Except Error Bytes :=
  if a.padded = true ∧ (g.padding + g.values.length) % 4 ≠ 0 then .error .padding
  else if a.padded = false ∧ g.padding > 0 then .error .padding
  else match g.values with
    | [v, w] =>
      if w % 16 = 0 then .ok [UInt8.ofNat ((v * 64 + w) / 16)]
      else .error (.lastSymbol g.lastSymbol (offset + 1))
    | [v, w, x] =>
      if x % 4 = 0 then
        let n := ((v * 64 + w) * 64 + x) / 4
        .ok [UInt8.ofNat (n / 256), UInt8.ofNat (n % 256)]
      else .error (.lastSymbol g.lastSymbol (offset + 2))
    | [v, w, x, y] =>
      let n := ((v * 64 + w) * 64 + x) * 64 + y
      .ok [UInt8.ofNat (n / 65536), UInt8.ofNat (n / 256 % 256), UInt8.ofNat (n % 256)]
    | vs => .error (.length (offset + vs.length))

/-- Reads complete groups of four symbols until at most one group is left. -/
def decodeGroups (a : Alphabet) : Nat → Bytes → Except Error Bytes
  | offset, p :: q :: r :: s :: t :: rest => do
    let v ← valueAt a offset p
    let w ← valueAt a (offset + 1) q
    let x ← valueAt a (offset + 2) r
    let y ← valueAt a (offset + 3) s
    let tail ← decodeGroups a (offset + 4) (t :: rest)
    let n := ((v * 64 + w) * 64 + x) * 64 + y
    return UInt8.ofNat (n / 65536) :: UInt8.ofNat (n / 256 % 256) :: UInt8.ofNat (n % 256) :: tail
  | offset, rest => do
    let g ← readLastGroup a offset 0 ⟨[], 0, 0⟩ rest
    finishGroup a offset g

/-- Reads bytes from their symbols. A text one symbol longer than a whole number of groups is first
searched for a foreign character at its end, such as a line break. -/
def decodeBytes (a : Alphabet) (input : Bytes) : Except Error Bytes :=
  match input with
  | [] => .ok []
  | _ =>
    let last := input.getLastD 0
    if input.length % 4 = 1 ∧ last ≠ pad ∧ (a.value? last).isNone then
      .error (.symbol last (input.length - 1))
    else decodeGroups a 0 input

def decode (a : Alphabet) (s : String) : Except Error Bytes := decodeBytes a (Bytes.ofText s)

end DeviceTrust.Base64
