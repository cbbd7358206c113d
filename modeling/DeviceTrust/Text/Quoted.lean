import DeviceTrust.Text.Shown

/-!
# Quoted text and described records

Descriptions of values put texts between double quotes, with a backslash before a quote,
a backslash and the common controls, and other characters without a picture of their own
by number. Records and lists are described by their parts.
-/

namespace DeviceTrust.Text

/-- Hexadecimal digits of a number, without leading zeros. -/
def hexNumber (n : Nat) : List Char := Nat.toDigits 16 n

def quoteChar (c : Char) : List Char :=
  match c with
  | '\x00' => ['\\', '0']
  | '\t' => ['\\', 't']
  | '\r' => ['\\', 'r']
  | '\n' => ['\\', 'n']
  | '\\' => ['\\', '\\']
  | '"' => ['\\', '"']
  | _ => if isUnshown c then ['\\', 'u', '\x7b'] ++ hexNumber c.toNat ++ ['\x7d'] else [c]

def quoted (s : String) : String := "\"" ++ String.ofList (s.toList.flatMap quoteChar) ++ "\""

/-- Description of a list by the descriptions of its members. -/
def describeList (items : List String) : String := "[" ++ String.intercalate ", " items ++ "]"

def describeTexts (items : List String) : String := describeList (items.map quoted)

/-- Description of a value that may be absent. -/
def describeOption : Option String → String
  | some s => "Some(" ++ s ++ ")"
  | none => "None"

/-- Description of a record by its name and the descriptions of its fields. -/
def describeRecord (name : String) (fields : List (String × String)) : String :=
  name ++ " \x7b " ++ String.intercalate ", " (fields.map fun (k, v) => k ++ ": " ++ v) ++ " \x7d"

end DeviceTrust.Text
