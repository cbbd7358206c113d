import DeviceTrust.Base64
import DeviceTrust.Text.Blank

/-!
# PEM files

A key file holds a labelled block: `-----BEGIN label-----`, base64 in lines, and
`-----END label-----`. Text before the first block and after it does not matter. Headers
may stand before a blank line.
-/

namespace DeviceTrust.Pem

structure Block where
  label : String
  contents : Bytes

/-- Searches for a marker and returns what stands before and behind it. A failed attempt is given up as a
whole: the byte that ends it does not start another one. -/
def search (marker : Bytes) : Nat → Bytes → Bytes → Option (Bytes × Bytes)
  | _, _, [] => none
  | matched, passed, b :: rest =>
    let matched := if marker[matched]? = some b then matched + 1 else 0
    if matched = marker.length then
      some ((b :: passed).reverse.take (passed.length + 1 - matched), rest)
    else search marker matched (b :: passed) rest

/-- What stands before the first occurrence of a marker, and behind it. -/
def cut (marker : String) (input : Bytes) : Option (Bytes × Bytes) :=
  search (Bytes.ofText marker) 0 [] input

/-- Drops leading spaces, tabs and line breaks. -/
def skipBlank (b : Bytes) : Bytes :=
  b.dropWhile fun c => c == 0x20 || c == 0x09 || c == 0x0a || c == 0x0d

def lines (s : List Char) : List (List Char) :=
  let rec go (line : List Char) : List Char → List (List Char)
    | [] => if line.isEmpty then [] else [line.reverse]
    | '\n' :: rest => line.reverse :: go [] rest
    | c :: rest => go (c :: line) rest
  go [] s

/-- Headers and data of a body, which a blank line separates. -/
def headersAndData (body : Bytes) : Bytes × Bytes :=
  match cut "\n\n" body with
  | some parts => parts
  | none =>
    match cut "\r\n\r\n" body with
    | some parts => parts
    | none => ([], body)

/-- Reads the first block. Its two labels must agree, and every header must have a name. -/
def read (input : Bytes) : Option Block := do
  let (_, rest) ← cut "-----BEGIN " input
  let (opening, rest) ← cut "-----" rest
  let (body, rest) ← cut "-----END " (skipBlank rest)
  let (closing, _) ← cut "-----" rest
  let label ← Bytes.text? opening
  let closing ← Bytes.text? closing
  if label.isEmpty ∨ label ≠ closing then none
  else
    let (headers, data) := headersAndData body
    let data ← Bytes.text? data
    let headers ← Bytes.text? headers
    let symbols := (lines data.toList).flatMap (Text.dropWhileEnd Text.isBlank)
    match Base64.decode .standard (String.ofList symbols) with
    | .error _ => none
    | .ok contents =>
      if (lines headers.toList).all (·.contains ':') then some ⟨label, contents⟩ else none

end DeviceTrust.Pem
