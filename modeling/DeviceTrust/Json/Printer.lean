import DeviceTrust.Json.Spelling
import DeviceTrust.Json.Value

/-!
# Writing JSON

Two layouts: compact, without any blank, as signed and sent; and indented by two spaces a
level, as shown to people. Members keep their order.
-/

namespace DeviceTrust.Json

def text (s : String) : Json := .string (spell s)

def integer (n : Int) : Json := .number (.ofInt n)

def texts (xs : List String) : Json := .array (xs.map text)

def record (members : List (String × Json)) : Json := .object (members.map fun (k, v) => (spell k, v))

def printDigits (ds : List Nat) : Bytes := ds.map fun d => UInt8.ofNat (0x30 + d)

def Number.print (n : Number) : Bytes :=
  (if n.negative then [0x2d] else []) ++ printDigits n.whole ++
    (match n.fraction with
      | some ds => 0x2e :: printDigits ds
      | none => []) ++
    (match n.exponent with
      | some (minus, ds) => 0x65 :: (if minus then [0x2d] else []) ++ printDigits ds
      | none => [])

def printString (spelling : Bytes) : Bytes := 0x22 :: spelling ++ [0x22]

mutual

def print : Json → Bytes
  | .null => Bytes.ofText "null"
  | .bool true => Bytes.ofText "true"
  | .bool false => Bytes.ofText "false"
  | .number n => n.print
  | .string s => printString s
  | .array items => 0x5b :: printItems items
  | .object members => 0x7b :: printMembers members

def printItems : List Json → Bytes
  | [] => [0x5d]
  | [v] => print v ++ [0x5d]
  | v :: w :: vs => print v ++ 0x2c :: printItems (w :: vs)

def printMembers : List (Bytes × Json) → Bytes
  | [] => [0x7d]
  | [(k, v)] => printString k ++ 0x3a :: print v ++ [0x7d]
  | (k, v) :: m :: ms => printString k ++ 0x3a :: print v ++ 0x2c :: printMembers (m :: ms)

end

/-- A line break and the blanks of an indentation level. -/
def newline (level : Nat) : Bytes := 0x0a :: List.replicate (2 * level) 0x20

mutual

/-- The indented layout at a level; an empty array or object stays on its line. -/
def indent (level : Nat) : Json → Bytes
  | .array [] => [0x5b, 0x5d]
  | .array (v :: vs) => 0x5b :: newline (level + 1) ++ indentItems level (v :: vs)
  | .object [] => [0x7b, 0x7d]
  | .object (m :: ms) => 0x7b :: newline (level + 1) ++ indentMembers level (m :: ms)
  | .null => Bytes.ofText "null"
  | .bool true => Bytes.ofText "true"
  | .bool false => Bytes.ofText "false"
  | .number n => n.print
  | .string s => printString s

/-- Items one level below `level`, and the closing bracket. -/
def indentItems (level : Nat) : List Json → Bytes
  | [] => [0x5d]
  | [v] => indent (level + 1) v ++ newline level ++ [0x5d]
  | v :: w :: vs =>
    indent (level + 1) v ++ 0x2c :: newline (level + 1) ++ indentItems level (w :: vs)

/-- Members one level below `level`, and the closing brace. -/
def indentMembers (level : Nat) : List (Bytes × Json) → Bytes
  | [] => [0x7d]
  | [(k, v)] =>
    printString k ++ 0x3a :: 0x20 :: indent (level + 1) v ++ newline level ++ [0x7d]
  | (k, v) :: m :: ms =>
    printString k ++ 0x3a :: 0x20 :: indent (level + 1) v ++ 0x2c :: newline (level + 1) ++
      indentMembers level (m :: ms)

end

def pretty (v : Json) : Bytes := indent 0 v

/-- The compact layout as text. The bytes are UTF-8 whenever the spellings are. -/
def printText (v : Json) : String := (Bytes.text? (print v)).getD ""

def prettyText (v : Json) : String := (Bytes.text? (pretty v)).getD ""

end DeviceTrust.Json
