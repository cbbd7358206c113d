/-!
# Values of a settings document

A document is a table of values by name. Tables remember how they were written, because that
decides which later lines may still add to them. Texts, whole numbers and truth values are
kept by what they mean; real numbers and moments, which no setting is made of, by how they are
spelled.
-/

namespace DeviceTrust.Toml

inductive TableKind where
  /-- Under a header of its own. -/
  | header
  /-- As the parent of a table under a header. -/
  | ancestor
  /-- By the dots in a key. -/
  | dotted
  /-- Between braces. -/
  | inline
  deriving DecidableEq, Repr

inductive Value where
  | text (value : String)
  | integer (value : Int)
  | real (spelling : String)
  | boolean (value : Bool)
  /-- A date, a time of day, or both, in their shortest full spelling. -/
  | moment (spelling : String)
  | array (items : List Value)
  | table (kind : TableKind) (members : List (String × Value))
  /-- Tables under headers of one name, one after the other. -/
  | rows (tables : List (List (String × Value)))

/-- The members of a table in the order in which they were written. -/
abbrev Members := List (String × Value)

namespace Members

def replace (ms : Members) (name : String) (value : Value) : Members :=
  ms.map fun (k, v) => if k = name then (k, value) else (k, v)

/-- Works on the table that a header's path leads to. Tables on the way that are not there yet are made; of
rows the last one counts; a table between braces is closed. -/
def within : List String → (Members → Option Members) → Members → Option Members
  | [], change, ms => change ms
  | name :: path, change, ms =>
    match ms.lookup name with
    | none => (within path change []).map fun inner => ms ++ [(name, .table .ancestor inner)]
    | some (.table .inline _) => none
    | some (.table kind inner) =>
      (within path change inner).map fun inner => ms.replace name (.table kind inner)
    | some (.rows tables) =>
      match tables.getLast? with
      | none => none
      | some inner =>
        (within path change inner).map fun inner =>
          ms.replace name (.rows (tables.dropLast ++ [inner]))
    | some _ => none

/-- Gives a table a header of its own. A table has only one, and none if it was written otherwise. -/
def open? (name : String) (ms : Members) : Option Members :=
  match ms.lookup name with
  | none => some (ms ++ [(name, .table .header [])])
  | some (.table .ancestor inner) => some (ms.replace name (.table .header inner))
  | some _ => none

/-- Adds a row under a name that nothing but rows has. -/
def addRow? (name : String) (ms : Members) : Option Members :=
  match ms.lookup name with
  | none => some (ms ++ [(name, .rows [[]])])
  | some (.rows tables) => some (ms.replace name (.rows (tables ++ [[]])))
  | some _ => none

/-- Gives a key its value, unless the name is taken. A dotted key ends in a table that dots made or make, and
`here` says whether the table at hand is one. On the way there it may pass through tables that have no header
of their own, and through the last of rows. -/
def put (here : Bool) : List String → String → Value → Members → Option Members
  | [], name, value, ms =>
    if here && (ms.lookup name).isNone then some (ms ++ [(name, value)]) else none
  | part :: path, name, value, ms =>
    match ms.lookup part with
    | none =>
      (put true path name value []).map fun inner => ms ++ [(part, .table .dotted inner)]
    | some (.table .dotted inner) =>
      (put true path name value inner).map fun inner => ms.replace part (.table .dotted inner)
    | some (.table .ancestor inner) =>
      (put false path name value inner).map fun inner => ms.replace part (.table .ancestor inner)
    | some (.rows tables) =>
      match tables.getLast? with
      | none => none
      | some inner =>
        (put false path name value inner).map fun inner =>
          ms.replace part (.rows (tables.dropLast ++ [inner]))
    | some _ => none

end Members

end DeviceTrust.Toml
