/-!
# Reporting failures

A failure is reported by what failed and, beneath it, by what that came from. Each level has a
wording of its own, the outermost first.
-/

namespace DeviceTrust

structure Failure where
  message : String
  causes : List String := []
  deriving DecidableEq, Repr

namespace Failure

def within (f : Failure) (message : String) : Failure := ⟨message, f.message :: f.causes⟩

def chain (f : Failure) : String := String.intercalate ": " (f.message :: f.causes)

/-- Causes one a line, numbered if there are several. -/
def causeLines (causes : List String) : List String :=
  match causes with
  | [cause] => ["    " ++ cause]
  | _ => causes.zipIdx.map fun (cause, i) => s!"    {i}: " ++ cause

def report (f : Failure) : String :=
  if f.causes.isEmpty then "Error: " ++ f.message
  else String.intercalate "\n" (["Error: " ++ f.message, "", "Caused by:"] ++ causeLines f.causes)

end Failure

end DeviceTrust
