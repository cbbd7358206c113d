import DeviceTrust.Settings.Document
import DeviceTrust.Settings.Resolved
import DeviceTrust.Settings.Variables

/-!
# Sources of settings

Sources have ranks: defaults, then files, then the environment. They are loaded from the lowest
rank to the highest, those of one rank in the order in which they are given, and each is laid
over what came before. The first source that fails to load decides the answer.
-/

namespace DeviceTrust.Settings

/-- Rank of a source; a higher one is laid over a lower. -/
inductive Rank where
  | defaults
  | file
  | environment
  deriving DecidableEq, Repr

def Rank.number : Rank → Nat
  | defaults => 10
  | file => 20
  | environment => 50

inductive Source where
  /-- Says nothing: every setting has its default already. -/
  | defaults
  | file (path : String)
  | environment (env : Environment)
  | fixed (rank : Rank) (layer : Layer)

namespace Source

def rank : Source → Rank
  | defaults => .defaults
  | file _ => .file
  | environment _ => .environment
  | fixed rank _ => rank

def load (files : Storage) : Source → Except Error Layer
  | defaults => .ok {}
  | file path =>
    if !files.contains path then .ok {}
    else match files.readText path with
      | .error cause => .error (.unreadable path cause)
      | .ok document =>
        match Layer.ofDocument? document with
        | some layer => .ok layer
        | none => .error (.unparsable path)
  | environment env => env.layer files
  | fixed _ layer => .ok layer

/-- Sources in the order in which they are loaded. -/
def ordered (sources : List Source) : List Source :=
  sources.mergeSort fun a b => a.rank.number ≤ b.rank.number

def loadOver (files : Storage) : Layer → List Source → Except Error Layer
  | layer, [] => .ok layer
  | layer, s :: rest =>
    match s.load files with
    | .error e => .error e
    | .ok upper => loadOver files (layer.under upper) rest

end Source

def load (files : Storage) (sources : List Source) : Except Error Resolved :=
  match Source.loadOver files {} (Source.ordered sources) with
  | .error e => .error e
  | .ok layer => layer.resolve

/-- The usual place of the settings document. -/
def usualPath : String := "/etc/webconfig/security.toml"

/-- The settings of a document and an environment over the defaults. -/
def loadFrom (files : Storage) (path : String) (env : Environment) : Except Error Resolved :=
  load files [.defaults, .file path, .environment env]

end DeviceTrust.Settings
