import DeviceTrust.CommandLine.Arguments
import DeviceTrust.Settings.Variables
import DeviceTrust.Token.Authority

/-!
# Commands

What can be asked for on the command line, and how arguments say it. Two options are common to
all levels: the path of the settings document, for which a variable stands in where a level
does not name it, and the form of the log. Of paths given on several levels the innermost counts.
-/

namespace DeviceTrust.CommandLine

inductive Command where
  | generateKey (size : Nat)
  | encrypt (plain : String)
  | decrypt (sealedText : String)
  | issueToken (mac : String) (lifetime : Option Nat) (serial partnerId : Option String)
  | verifyToken (token : String) (cls : Token.TokenClass) (mac : Option String)
  | tokenKid (token : String)
  /-- Print the identifiers in the key set on the web. -/
  | fetchKeySet
  deriving DecidableEq, Repr

structure Invocation where
  settingsPath : Option String
  command : Command
  deriving DecidableEq, Repr

def settingsVariable : String := "WEBCONFIG_CONFIG"

/-- The variables that arguments or settings may come from. -/
def variableNames : List String := settingsVariable :: Settings.variableNames

def anyText (_ : String) : Bool := true

def isCount (value : String) : Bool := (Text.count? value).isSome

def classNamed? (name : String) : Option Token.TokenClass :=
  if name = "api" then some .api else if name = "device" then some .device else none

def commonOptions : List (String × (String → Bool)) :=
  [("config", fun v => !v.isEmpty), ("log-format", fun v => (Settings.LogFormat.ofName v).isOk)]

def level (options : List (String × (String → Bool))) (operands : Nat) : Level :=
  { options := options ++ commonOptions, operands := operands }

def choice (verbs : List String) (hasVersion : Bool) : Level :=
  { options := commonOptions, verbs := verbs ++ ["help"], hasVersion := hasVersion }

/-- The verbs of the top, and those of the two that choose further. -/
def topVerbs : List String := ["gen-key", "encrypt", "decrypt", "token", "jwks"]

def tokenVerbs : List String := ["issue", "verify", "kid"]

def keySetVerbs : List String := ["fetch"]

/-- Whether there is help for a path of verbs. -/
def hasHelp : List String → Bool
  | [] => true
  | ["token", v] => (tokenVerbs ++ ["help"]).contains v
  | ["jwks", v] => (keySetVerbs ++ ["help"]).contains v
  | [v] => (topVerbs ++ ["help"]).contains v
  | _ => false

def askHelp {α : Type} (path : List String) : Except Halt α :=
  .error (if hasHelp path then .help else .misuse)

/-- Reads what is to be done with a token; the answer has what each level was given. -/
def readTokenVerb (verb : String) (args : List String) : Except Halt (Command × List Given) := do
  if verb = "issue" then
    let g ← (level [("mac", anyText), ("ttl-secs", isCount), ("serial", anyText), ("partner-id", anyText)]
      0).read args
    match g.value? "mac" with
    | none => .error .misuse
    | some mac =>
      return (.issueToken mac ((g.value? "ttl-secs").bind Text.count?) (g.value? "serial")
        (g.value? "partner-id"), [g])
  else if verb = "verify" then
    let g ← (level [("class", fun v => (classNamed? v).isSome), ("mac", anyText)] 1).read args
    return (.verifyToken (g.operand 0) (((g.value? "class").bind classNamed?).getD .device)
      (g.value? "mac"), [g])
  else if verb = "kid" then
    let g ← (level [] 1).read args
    return (.tokenKid (g.operand 0), [g])
  else askHelp ("token" :: args)

def readKeySetVerb (verb : String) (args : List String) : Except Halt (Command × List Given) := do
  if verb = "fetch" then
    let g ← (level [] 0).read args
    return (.fetchKeySet, [g])
  else askHelp ("jwks" :: args)

def readVerb (verb : String) (args : List String) : Except Halt (Command × List Given) := do
  if verb = "gen-key" then
    let g ← (level [("size", isCount)] 0).read args
    return (.generateKey (((g.value? "size").bind Text.count?).getD 32), [g])
  else if verb = "encrypt" then
    let g ← (level [] 1).read args
    return (.encrypt (g.operand 0), [g])
  else if verb = "decrypt" then
    let g ← (level [] 1).read args
    return (.decrypt (g.operand 0), [g])
  else if verb = "token" then
    let g ← (choice tokenVerbs false).read args
    match g.verb with
    | none => .error .misuse
    | some (verb, rest) =>
      let (command, given) ← readTokenVerb verb rest
      return (command, g :: given)
  else if verb = "jwks" then
    let g ← (choice keySetVerbs false).read args
    match g.verb with
    | none => .error .misuse
    | some (verb, rest) =>
      let (command, given) ← readKeySetVerb verb rest
      return (command, g :: given)
  else askHelp args

/-- Whether a level has a path for the settings or may take it from the variable, which must not be empty. -/
def hasUsablePath (variableValue : Option String) (g : Given) : Bool :=
  (g.value? "config").isSome || variableValue != some ""

def Invocation.read (env : Settings.Environment) (args : List String) : Except Halt Invocation := do
  let top ← (choice topVerbs true).read args
  match top.verb with
  | none => .error .misuse
  | some (verb, rest) =>
    let (command, given) ← readVerb verb rest
    let levels := top :: given
    if levels.all (hasUsablePath (env settingsVariable)) then
      let paths := levels.filterMap fun g => g.value? "config"
      return ⟨paths.getLast?.or (env settingsVariable), command⟩
    else .error .misuse

end DeviceTrust.CommandLine
