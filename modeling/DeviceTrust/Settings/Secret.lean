import DeviceTrust.Settings.Error
import DeviceTrust.Text.Blank
import DeviceTrust.Text.Quoted

/-!
# Secrets out of the environment

A secret is the value of a variable, or the contents of the file that a second variable
names. The file wins where both are given, and line breaks at its end do not count. No secret
shows in a description.
-/

namespace DeviceTrust.Settings

/-- The value of a variable, if it is set. -/
abbrev Environment := String → Option String

structure Secret where
  text : String
  deriving DecidableEq, Repr

namespace Secret

def describe (_ : Secret) : String := "[REDACTED]"

/-- Whether nothing but blank characters is in a secret. -/
def isBlank (s : Secret) : Bool := (Text.nonBlank? s.text).isNone

def ofText? (text : String) : Option Secret := if text.isEmpty then none else some ⟨text⟩

def isLineBreak (c : Char) : Bool := c == '\r' || c == '\n'

/-- The secret in the contents of a file, if anything is left without the line breaks at the end. -/
def ofContents? (contents : String) : Option Secret :=
  ofText? (String.ofList (Text.dropWhileEnd isLineBreak contents.toList))

def fileVariable (name : String) : String := name ++ "_FILE"

def path? (env : Environment) (name : String) : Option String :=
  (env (fileVariable name)).bind Text.nonBlank?

def load (files : Storage) (env : Environment) (name : String) :
    Except SecretError (Option Secret) :=
  match path? env name with
  | some path =>
    match files.readText path with
    | .ok contents => .ok (ofContents? contents)
    | .error cause => .error ⟨fileVariable name, path, cause⟩
  | none => .ok ((env name).bind ofText?)

end Secret

end DeviceTrust.Settings
