import DeviceTrust.Token.Claims
import DeviceTrust.Token.Error

/-!
# Looking into a token without verifying it

A token is three segments between dots. Its header and its payload can be read before any
key is at hand; nothing here checks a signature.
-/

namespace DeviceTrust.Token

/-- Header and payload of a text of three segments, neither of them empty. -/
def segments? (token : String) : Except Error (String × String) :=
  match Text.split '.' token with
  | [header, payload, _] =>
    if header.isEmpty ∨ payload.isEmpty then .error (.malformed .segments)
    else .ok (header, payload)
  | _ => .error (.malformed .segments)

/-- Reads one part of a token; padding at its end is passed over. -/
def readPart {α : Type} (part : Part) (read : Bytes → Option α) (segment : String) : Except Error α :=
  let bare := String.ofList (Text.dropWhileEnd (· == '=') segment.toList)
  match Base64.decode .url bare with
  | .error e => .error (.malformed (.encoding part e))
  | .ok document =>
    match read document with
    | some v => .ok v
    | none => .error (.malformed (.document part))

/-- The key identifier in a header, if there is one. -/
def readHeaderKid (document : Bytes) : Option (Option String) := do
  let f ← Json.fields? ["kid"] (← Json.read document)
  f.optional? "kid" Json.text?

def parseKid (token : String) : Except Error String := do
  let (header, _) ← segments? token
  match ← readPart .header readHeaderKid header with
  | some kid => if kid.isEmpty then .error .missingKid else .ok kid
  | none => .error .missingKid

def readClaims (token : String) : Except Error Claims := do
  let (_, payload) ← segments? token
  readPart .payload Claims.read payload

end DeviceTrust.Token
