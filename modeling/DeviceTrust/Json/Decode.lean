import DeviceTrust.Json.Reader

/-!
# Values of known shape

What the library asks of a document: texts, lists of texts, integers, and records. A record
may be an object, whose known members come at most once and whose unknown ones are passed
over, or an array with the fields in their order. `null` counts as absent.
-/

namespace DeviceTrust.Json

def text? : Json → Option String
  | .string s => unspell s
  | _ => none

/-- The integer, if it is one and fits 64 signed bits. -/
def int64? : Json → Option Int
  | .number n => n.toInt?.bind fun v => if v < Nat.pow 2 63 then some v else none
  | _ => none

def listOf? {α : Type} (item? : Json → Option α) : Json → Option (List α)
  | .array items => items.mapM item?
  | _ => none

def orNull? {α : Type} (value? : Json → Option α) : Json → Option (Option α)
  | .null => some none
  | v => (value? v).map some

/-- Reads a name out of a fixed list. It may also come as an object with the name for its only member, over
`null` or, where `emptyObject` says so, over an object without members. -/
def choice? (names : List String) (emptyObject : Bool) (v : Json) : Option String := do
  let name ← match v with
    | .string s => unspell s
    | .object [(k, .null)] => unspell k
    | .object [(k, .object [])] => if emptyObject then unspell k else none
    | _ => none
  if names.contains name then some name else none

/-- The fields of a record, each with its value if it has one. -/
structure Fields where
  /-- Whether the record came as an array. -/
  positional : Bool
  values : List (String × Json)

namespace Fields

def get? (f : Fields) (name : String) : Option Json := f.values.lookup name

/-- Reads a field that may be missing from an object and from an array, and may be `null`. -/
def optional? {α : Type} (f : Fields) (name : String) (value? : Json → Option α) :
    Option (Option α) :=
  match f.get? name with
  | none => some none
  | some v => orNull? value? v

/-- Reads a field that may be missing from an object but not from an array, and may be `null`. -/
def placed? {α : Type} (f : Fields) (name : String) (value? : Json → Option α) :
    Option (Option α) :=
  match f.get? name with
  | none => if f.positional then none else some none
  | some v => orNull? value? v

def required? {α : Type} (f : Fields) (name : String) (value? : Json → Option α) : Option α :=
  (f.get? name).bind value?

end Fields

/-- Whether no name of a list comes twice among the members. -/
def distinct (names : List String) : Bool := names.eraseDups.length == names.length

/-- The named members of an object. All names must be texts, and a known one may come only once. -/
def membersNamed? (names : List String) (members : List (Bytes × Json)) :
    Option (List (String × Json)) := do
  let all ← members.mapM fun (k, v) => (unspell k).map fun name => (name, v)
  let known := all.filter fun (name, _) => names.contains name
  if distinct (known.map Prod.fst) then some known else none

/-- Reads a record with the given fields. An array may be shorter than the list of fields, not longer. -/
def fields? (names : List String) : Json → Option Fields
  | .object members => (membersNamed? names members).map fun vs => ⟨false, vs⟩
  | .array items =>
    if items.length ≤ names.length then some ⟨true, names.zip items⟩ else none
  | _ => none

end DeviceTrust.Json
