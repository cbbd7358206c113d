/-!
# Values by name

A list of names and values in ascending order of the names, each of which occurs once.
-/

namespace DeviceTrust.Named

/-- Puts a value in its place, over one of the same name. -/
def insert {α : Type} (name : String) (value : α) : List (String × α) → List (String × α)
  | [] => [(name, value)]
  | (k, v) :: rest =>
    if k = name then (name, value) :: rest
    else if name < k then (name, value) :: (k, v) :: rest
    else (k, v) :: insert name value rest

def ofList {α : Type} (entries : List (String × α)) : List (String × α) :=
  entries.foldl (fun acc (name, value) => insert name value acc) []

theorem insert_ne_nil {α : Type} (name : String) (value : α) (es : List (String × α)) :
    insert name value es ≠ [] := by
  cases es with
  | nil => simp [insert]
  | cons e rest =>
    unfold insert
    split <;> try split
    all_goals simp

end DeviceTrust.Named
