import DeviceTrust.Toml.Reader

/-!
# Values of known shape

What the library asks of a settings document: texts, counts, lists, tables of texts, names out
of a fixed list, and records. A record may be a table, whose unknown members are passed over,
or an array with the fields in their order. Where a table is wanted a moment counts as one with
a single member under a reserved name.
-/

namespace DeviceTrust.Toml

/-- The name under which a moment counts as a member. -/
def momentMember : String := "$__toml_private_datetime"

namespace Value

def text? : Value → Option String
  | .text s => some s
  | _ => none

/-- The whole number, if it is one and not negative. -/
def count? : Value → Option Nat
  | .integer n => if 0 ≤ n then some n.toNat else none
  | _ => none

/-- The items of an array or the rows under a header. -/
def items? : Value → Option (List Value)
  | .array items => some items
  | .rows tables => some (tables.map (.table .header))
  | _ => none

def members? : Value → Option Members
  | .table _ members => some members
  | .moment spelling => some [(momentMember, .text spelling)]
  | _ => none

def listOf? {α : Type} (item? : Value → Option α) (v : Value) : Option (List α) :=
  v.items?.bind fun items => items.mapM item?

def tableOf? {α : Type} (member? : Value → Option α) (v : Value) : Option (List (String × α)) :=
  v.members?.bind fun members =>
    members.mapM fun (name, v) => (member? v).map fun x => (name, x)

/-- Whether a value is a table or an array with nothing in it. -/
def isHollow : Value → Bool
  | .table _ [] => true
  | .array [] => true
  | _ => false

/-- Reads a name out of a fixed list. It may also come as a table with the name for its only member, over a
value with nothing in it. -/
def choice? (names : List String) (v : Value) : Option String :=
  let name := match v with
    | .text s => some s
    | .table _ [(k, inner)] => if inner.isHollow then some k else none
    | _ => none
  name.filter names.contains

/-- Reads a record with the given fields. An array must have an item for each of them; further ones are passed
over. -/
def fields? (names : List String) (v : Value) : Option Members :=
  match v.items? with
  | some items => if names.length ≤ items.length then some (names.zip items) else none
  | none => v.members?

end Value

def Members.optional? {α : Type} (ms : Members) (name : String) (value? : Value → Option α) :
    Option (Option α) :=
  match ms.lookup name with
  | none => some none
  | some v => (value? v).map some

end DeviceTrust.Toml
