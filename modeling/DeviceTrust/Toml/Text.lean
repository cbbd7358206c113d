import DeviceTrust.Bytes

/-!
# Lines, comments and strings

What a settings document is made of besides values: blanks, line breaks, comments, and the
four spellings of a string. Between double quotes a backslash starts an escape; between
single quotes nothing does. Three quotes open a string over several lines, whose first line
break does not count.
-/

namespace DeviceTrust.Toml

def isBlank (c : Char) : Bool := c == ' ' || c == '\t'

def skipBlank (input : List Char) : List Char := input.dropWhile isBlank

/-- All but the controls, of which only the tab may stand in a line. -/
def isInLine (c : Char) : Bool := c == '\t' || (0x20 ≤ c.toNat && c.toNat != 0x7f)

def lineBreak? : List Char → Option (List Char)
  | '\n' :: rest => some rest
  | '\r' :: '\n' :: rest => some rest
  | _ => none

/-- Drops a comment, if one begins here, up to the end of its line. -/
def skipComment : List Char → List Char
  | '#' :: rest => rest.dropWhile isInLine
  | input => input

/-- Takes off what may follow on a line: blanks, a comment, and a line break or the end of the input. -/
def lineEnd? (input : List Char) : Option (List Char) :=
  match skipComment (skipBlank input) with
  | [] => some []
  | rest => lineBreak? rest

/-- Drops blanks, line breaks and comments, each comment with the line break that ends it. -/
def skipLines : Nat → List Char → Option (List Char)
  | 0, _ => none
  | steps + 1, input =>
    match skipBlank input with
    | '#' :: rest => (lineBreak? (rest.dropWhile isInLine)).bind (skipLines steps)
    | '\n' :: rest => skipLines steps rest
    | '\r' :: rest => (lineBreak? ('\r' :: rest)).bind (skipLines steps)
    | rest => some rest

/-- The character that a one-letter escape stands for. -/
def shortEscape? : Char → Option Char
  | 'b' => some '\x08'
  | 't' => some '\t'
  | 'n' => some '\n'
  | 'f' => some '\x0c'
  | 'r' => some '\r'
  | '"' => some '"'
  | '\\' => some '\\'
  | _ => none

/-- The character whose number is given in hexadecimal digits. -/
def charOfHex? (digits : List Char) : Option Char := do
  let n ← digits.foldlM (fun n d => (Bytes.hexValue? d).map fun x => n * 16 + x) 0
  if n < 0xD800 ∨ (0xDFFF < n ∧ n < 0x110000) then some (Char.ofNat n) else none

def consRead (c : Char) (r : List Char × List Char) : List Char × List Char := (c :: r.1, r.2)

/-- Reads a string on one line behind its double quote. -/
def readQuoted : List Char → Option (List Char × List Char)
  | [] => none
  | c :: rest =>
    if c = '"' then some ([], rest)
    else if c = '\\' then
      match rest with
      | [] => none
      | e :: after =>
        if e = 'u' then
          match after with
          | p :: q :: r :: s :: left =>
            match charOfHex? [p, q, r, s] with
            | some x => (readQuoted left).map (consRead x)
            | none => none
          | _ => none
        else if e = 'U' then
          match after with
          | p :: q :: r :: s :: t :: u :: v :: w :: left =>
            match charOfHex? [p, q, r, s, t, u, v, w] with
            | some x => (readQuoted left).map (consRead x)
            | none => none
          | _ => none
        else match shortEscape? e with
          | some x => (readQuoted after).map (consRead x)
          | none => none
    else if isInLine c then (readQuoted rest).map (consRead c)
    else none

/-- Up to two more quotes behind the three that end a string belong to it. -/
def closing (quote : Char) : List Char → List Char × List Char
  | p :: q :: rest =>
    if p = quote ∧ q = quote then ([p, q], rest)
    else if p = quote then ([p], q :: rest)
    else ([], p :: q :: rest)
  | [p] => if p = quote then ([p], []) else ([], [p])
  | [] => ([], [])

/-- Whether nothing but blanks stands before a line break. -/
def endsLine (input : List Char) : Bool := (lineBreak? (skipBlank input)).isSome

/-- Reads a string over several lines behind its three double quotes. A backslash at the end of a line drops
all blanks and line breaks that follow, and `dropping` says that this is going on. -/
def readQuotedLines (dropping : Bool) : List Char → Option (List Char × List Char)
  | [] => none
  | c :: rest =>
    if c = '\n' then
      if dropping then readQuotedLines true rest
      else (readQuotedLines false rest).map (consRead '\n')
    else if c = '\r' then
      match rest with
      | '\n' :: left =>
        if dropping then readQuotedLines true left
        else (readQuotedLines false left).map (consRead '\n')
      | _ => none
    else if dropping && isBlank c then readQuotedLines true rest
    else if c = '"' then
      match rest with
      | '"' :: '"' :: left => some (closing '"' left)
      | _ => (readQuotedLines false rest).map (consRead '"')
    else if c = '\\' then
      if endsLine rest then readQuotedLines true rest
      else match rest with
        | [] => none
        | e :: after =>
          if e = 'u' then
            match after with
            | p :: q :: r :: s :: left =>
              match charOfHex? [p, q, r, s] with
              | some x => (readQuotedLines false left).map (consRead x)
              | none => none
            | _ => none
          else if e = 'U' then
            match after with
            | p :: q :: r :: s :: t :: u :: v :: w :: left =>
              match charOfHex? [p, q, r, s, t, u, v, w] with
              | some x => (readQuotedLines false left).map (consRead x)
              | none => none
            | _ => none
          else match shortEscape? e with
            | some x => (readQuotedLines false after).map (consRead x)
            | none => none
    else if isInLine c then (readQuotedLines false rest).map (consRead c)
    else none

/-- Reads a string on one line behind its single quote. -/
def readLiteral : List Char → Option (List Char × List Char)
  | [] => none
  | c :: rest =>
    if c = '\'' then some ([], rest)
    else if isInLine c then (readLiteral rest).map (consRead c)
    else none

/-- Reads a string over several lines behind its three single quotes. -/
def readLiteralLines : List Char → Option (List Char × List Char)
  | [] => none
  | c :: rest =>
    if c = '\n' then (readLiteralLines rest).map (consRead '\n')
    else if c = '\r' then
      match rest with
      | '\n' :: left => (readLiteralLines left).map (consRead '\n')
      | _ => none
    else if c = '\'' then
      match rest with
      | '\'' :: '\'' :: left => some (closing '\'' left)
      | _ => (readLiteralLines rest).map (consRead '\'')
    else if isInLine c then (readLiteralLines rest).map (consRead c)
    else none

def skipLineBreak (input : List Char) : List Char := (lineBreak? input).getD input

def readString : List Char → Option (List Char × List Char)
  | '"' :: '"' :: '"' :: rest => readQuotedLines false (skipLineBreak rest)
  | '"' :: rest => readQuoted rest
  | '\'' :: '\'' :: '\'' :: rest => readLiteralLines (skipLineBreak rest)
  | '\'' :: rest => readLiteral rest
  | _ => none

def isBare (c : Char) : Bool := c.isAlphanum || c == '-' || c == '_'

def readPart : List Char → Option (String × List Char)
  | '"' :: rest => (readQuoted rest).map fun (k, left) => (String.ofList k, left)
  | '\'' :: rest => (readLiteral rest).map fun (k, left) => (String.ofList k, left)
  | input =>
    match input.takeWhile isBare with
    | [] => none
    | k => some (String.ofList k, input.dropWhile isBare)

/-- Reads the parts of a key, at most `bound`, with blanks around them. -/
def readParts : Nat → List Char → Option (List String × List Char)
  | 0, _ => none
  | bound + 1, input =>
    match readPart (skipBlank input) with
    | none => none
    | some (part, rest) =>
      match skipBlank rest with
      | '.' :: more => (readParts bound more).map fun (parts, left) => (part :: parts, left)
      | left => some ([part], left)

def depthLimit : Nat := 79

/-- Reads a key: the parts before the last, and the last. -/
def readKey (input : List Char) : Option ((List String × String) × List Char) :=
  match readParts depthLimit input with
  | none => none
  | some (parts, rest) => parts.getLast?.map fun name => ((parts.dropLast, name), rest)

end DeviceTrust.Toml
