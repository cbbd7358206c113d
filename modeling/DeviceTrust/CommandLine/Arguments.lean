/-!
# Arguments

Arguments are read level by level: each level has options that take a value, operands, and
verbs that open a further level. An option comes at most once a level, its value behind an
equals sign or as the next argument. Two dashes alone make operands of everything that follows.
Help and, at the top, the version are asked for by options of their own, and end the reading.
-/

namespace DeviceTrust.CommandLine

/-- What ends the reading of arguments before there is a command. -/
inductive Halt where
  | misuse
  | help
  | version
  deriving DecidableEq, Repr

inductive Argument where
  /-- Two dashes and a name, with or without a value behind an equals sign. -/
  | long (name : String) (value : Option String)
  | short (letter : Char)
  | separator
  | word (text : String)
  deriving DecidableEq, Repr

/-- The looks of an argument. A single dash is a word. -/
def Argument.ofText (text : String) : Argument :=
  match text.toList with
  | ['-', '-'] => .separator
  | '-' :: '-' :: rest =>
    let name := String.ofList (rest.takeWhile (· != '='))
    match rest.dropWhile (· != '=') with
    | [] => .long name none
    | _ :: value => .long name (some (String.ofList value))
  | '-' :: letter :: _ => .short letter
  | _ => .word text

structure Level where
  /-- The options, each with what its value must be. -/
  options : List (String × (String → Bool))
  operands : Nat := 0
  verbs : List String := []
  hasVersion : Bool := false

structure Given where
  values : List (String × String) := []
  operands : List String := []
  verb : Option (String × List String) := none

def Given.value? (g : Given) (option : String) : Option String := g.values.lookup option

def Given.operand (g : Given) (i : Nat) : String := g.operands.getD i ""

namespace Level

def addValue (l : Level) (g : Given) (option value : String) : Except Halt Given :=
  match l.options.lookup option with
  | none => .error .misuse
  | some accepts =>
    if accepts value && (g.value? option).isNone then
      .ok { g with values := g.values ++ [(option, value)] }
    else .error .misuse

def addOperand (l : Level) (g : Given) (value : String) : Except Halt Given :=
  if g.operands.length < l.operands then .ok { g with operands := g.operands ++ [value] }
  else .error .misuse

def take (l : Level) (g : Given) : List String → Except Halt Given
  | [] => .ok g
  | a :: rest =>
    match Argument.ofText a with
    | .separator => rest.foldlM l.addOperand g
    | .short letter =>
      if letter = 'h' then .error .help
      else if letter = 'V' && l.hasVersion then .error .version
      else .error .misuse
    | .long name (some value) =>
      match l.addValue g name value with
      | .ok g => l.take g rest
      | .error h => .error h
    | .long name none =>
      if name = "help" then .error .help
      else if name = "version" && l.hasVersion then .error .version
      else match rest with
        | [] => .error .misuse
        | value :: more =>
          match Argument.ofText value with
          | .word _ =>
            match l.addValue g name value with
            | .ok g => l.take g more
            | .error h => .error h
          | _ => .error .misuse
    | .word w =>
      if l.verbs.contains w then .ok { g with verb := some (w, rest) }
      else match l.addOperand g w with
        | .ok g => l.take g rest
        | .error h => .error h

/-- Takes all arguments of a level, no operand missing. -/
def read (l : Level) (args : List String) : Except Halt Given :=
  match l.take {} args with
  | .error h => .error h
  | .ok g =>
    if g.verb.isNone && g.operands.length < l.operands then .error .misuse else .ok g

end Level

end DeviceTrust.CommandLine
