import DeviceTrust.KeySet.Error
import DeviceTrust.KeySet.Jwk
import DeviceTrust.Named
import DeviceTrust.Text.Quoted

/-!
# Key sets

A key set maps key identifiers to verification keys. It is kept in ascending order of the
identifiers, each of which occurs once; inserting under an identifier that is there
replaces its key. Reading a document inserts its usable entries from first to last.
-/

namespace DeviceTrust

/-- Verification keys by identifier, in ascending order. -/
structure KeySet where
  entries : List (String × VerificationKey)
  deriving DecidableEq, Repr

namespace KeySet

def empty : KeySet := ⟨[]⟩

/-- Adds a key, replacing one with the same identifier. -/
def insert (s : KeySet) (kid : String) (key : VerificationKey) : KeySet :=
  ⟨Named.insert kid key s.entries⟩

def get? (s : KeySet) (kid : String) : Option VerificationKey := s.entries.lookup kid

def contains (s : KeySet) (kid : String) : Bool := (s.get? kid).isSome

def kids (s : KeySet) : List String := s.entries.map Prod.fst

def size (s : KeySet) : Nat := s.entries.length

def isEmpty (s : KeySet) : Bool := s.entries.isEmpty

def describe (s : KeySet) : String :=
  Text.describeRecord "KeySet" [("kids", Text.describeTexts s.kids)]

/-- Identifier and key of an entry that has both. -/
def usable? (j : Jwk) : Option (String × VerificationKey) := do
  let kid ← j.kid
  if kid.isEmpty then none
  else (j.key?).map fun key => (kid, key)

def ofEntries (entries : List Jwk) : KeySet :=
  (entries.filterMap usable?).foldl (fun s (kid, key) => s.insert kid key) empty

def ofDocument (document : Bytes) : Except Error KeySet :=
  match (Json.read document).bind Jwk.documentEntries? with
  | none => .error (.document .unreadable)
  | some entries =>
    let s := ofEntries entries
    if s.isEmpty then .error (.document .unusable) else .ok s

end KeySet

end DeviceTrust
