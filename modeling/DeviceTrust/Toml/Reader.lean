import DeviceTrust.Toml.Moment
import DeviceTrust.Toml.Text
import DeviceTrust.Toml.Value

/-!
# Reading a settings document

A document is read line by line: a header says which table the following keys belong to, and
a key gets its value there. Whatever the grammar or the rules of tables do not allow makes the
whole document unreadable. Each step takes at least one character, and the number of
characters bounds the steps.
-/

namespace DeviceTrust.Toml

/-- Reads a value that begins with a sign or a digit. -/
def readNumeral (input : List Char) : Option (Value × List Char) :=
  match readMoment input with
  | some (m, left) => some (.moment m, left)
  | none =>
    match dropReal? input with
    | some left => some (.real (String.ofList (input.take (input.length - left.length))), left)
    | none => (readInteger input).map fun (n, left) => (.integer n, left)

mutual

/-- Reads a value, within which at most `depth` others nest. -/
def readValue (depth : Nat) : Nat → List Char → Option (Value × List Char)
  | 0, _ => none
  | _ + 1, [] => none
  | steps + 1, c :: rest =>
    if c = '"' ∨ c = '\'' then
      (readString (c :: rest)).map fun (s, left) => (.text (String.ofList s), left)
    else if c = '[' then
      match depth with
      | 0 => none
      | depth + 1 => (readItems depth steps rest).map fun (vs, left) => (.array vs, left)
    else if c = '{' then
      match depth with
      | 0 => none
      | depth + 1 =>
        (readMembers depth steps [] rest).map fun (ms, left) => (.table .inline ms, left)
    else if c = 't' then (dropWord? "rue" rest).map fun left => (.boolean true, left)
    else if c = 'f' then (dropWord? "alse" rest).map fun left => (.boolean false, left)
    else if c = 'i' ∨ c = 'n' then
      (dropReal? (c :: rest)).map fun left => (.real (String.ofList ((c :: rest).take 3)), left)
    else if c = '+' ∨ c = '-' ∨ c.isDigit then readNumeral (c :: rest)
    else none

/-- Reads the items of an array up to its bracket. A comma may follow the last one, and lines may end
anywhere between them. -/
def readItems (depth : Nat) : Nat → List Char → Option (List Value × List Char)
  | 0, _ => none
  | steps + 1, input =>
    match skipLines (input.length + 1) input with
    | none => none
    | some (']' :: left) => some ([], left)
    | some more =>
      match readValue depth steps more with
      | none => none
      | some (v, rest) =>
        match skipLines (rest.length + 1) rest with
        | some (']' :: left) => some ([v], left)
        | some (',' :: left) => (readItems depth steps left).map fun (vs, left) => (v :: vs, left)
        | _ => none

/-- Reads the members of a table between braces, on one line and without a comma behind the last one. -/
def readMembers (depth : Nat) : Nat → Members → List Char → Option (Members × List Char)
  | 0, _, _ => none
  | steps + 1, members, input =>
    match skipBlank input, members with
    | '}' :: left, [] => some ([], left)
    | _, _ =>
      match readKey input with
      | some ((path, name), '=' :: rest) =>
        match readValue depth steps (skipBlank rest) with
        | none => none
        | some (v, rest) =>
          match members.put true path name v with
          | none => none
          | some members =>
            match skipBlank rest with
            | '}' :: left => some (members, left)
            | ',' :: more => readMembers depth steps members more
            | _ => none
      | _ => none

end

/-- What has been read: the document, and the path of the last header. -/
structure Draft where
  root : Members
  header : List String

def readHeader (d : Draft) (input : List Char) : Option (Draft × List Char) :=
  match input with
  | '[' :: rest =>
    match readKey rest with
    | some ((path, name), ']' :: ']' :: rest) =>
      match lineEnd? rest, d.root.within path (Members.addRow? name) with
      | some left, some root => some (⟨root, path ++ [name]⟩, left)
      | _, _ => none
    | _ => none
  | _ =>
    match readKey input with
    | some ((path, name), ']' :: rest) =>
      match lineEnd? rest, d.root.within path (Members.open? name) with
      | some left, some root => some (⟨root, path ++ [name]⟩, left)
      | _, _ => none
    | _ => none

def readSetting (d : Draft) (input : List Char) : Option (Draft × List Char) :=
  match readKey input with
  | some ((path, name), '=' :: rest) =>
    match readValue depthLimit (rest.length + 1) (skipBlank rest) with
    | none => none
    | some (v, rest) =>
      match lineEnd? rest, d.root.within d.header (Members.put true path name v) with
      | some left, some root => some (⟨root, d.header⟩, left)
      | _, _ => none
  | _ => none

def readLines : Nat → Draft → List Char → Option Draft
  | 0, _, _ => none
  | steps + 1, d, input =>
    match skipBlank input with
    | [] => some d
    | '#' :: rest => (lineEnd? ('#' :: rest)).bind (readLines steps d)
    | '[' :: rest => (readHeader d rest).bind fun (d, left) => readLines steps d left
    | c :: rest =>
      if c = '\n' ∨ c = '\r' then (lineBreak? (c :: rest)).bind (readLines steps d)
      else (readSetting d (c :: rest)).bind fun (d, left) => readLines steps d left

/-- Reads a document. A byte order mark before it does not count. -/
def read (document : String) : Option Members :=
  let input := match document.toList with
    | '\ufeff' :: rest => rest
    | input => input
  (readLines (input.length + 1) ⟨[], []⟩ input).map Draft.root

end DeviceTrust.Toml
