import DeviceTrust.KeySet.Jwk
import DeviceTrust.Rsa.Signature
import DeviceTrust.Token.Claims
import DeviceTrust.Token.Error

/-!
# Verifying a token against a key

Two generations of tokens are about. The current one is signed over SHA-256, must carry an
expiry and is checked for its start and, where asked for, its audience. The legacy one may
use the longer digests too and need not carry any times; an expiry is still honoured. Both
are rules for one and the same check, which looks at the key before the token, at the
signature before the claims, and at the claims in a fixed order.
-/

namespace DeviceTrust.Token

structure Rules where
  name : String
  hashes : List Rsa.Hash
  /-- Tolerated difference between clocks, in seconds. -/
  leeway : Int
  requiresExpiry : Bool
  checksStart : Bool
  /-- The audience that a token with an audience must name, if one is asked for. -/
  audience : Option String
  deriving DecidableEq, Repr

def Rules.current (audience : Option String) : Rules :=
  ⟨"current", [.sha256], 30, true, true, audience⟩

def Rules.legacy : Rules := ⟨"legacy", [.sha256, .sha384, .sha512], 300, false, false, none⟩

inductive VerifierKind where
  | current
  | legacy
  deriving DecidableEq, Repr

namespace VerifierKind

def name : VerifierKind → String
  | current => "current"
  | legacy => "legacy"

/-- The generation used where none is asked for. -/
def default : VerifierKind := current

/-- Rules of a generation; only the current one looks at the audience. -/
def rules (audience : Option String) : VerifierKind → Rules
  | current => .current audience
  | legacy => .legacy

/-- Reads the name of a generation in any case, blank characters around it aside. -/
def ofText (text : String) : Except Error VerifierKind :=
  let name := Text.lowerAscii (Text.trim text)
  if name = "current" then .ok current
  else if name = "legacy" then .ok legacy
  else .error (.configuration (.unknownVerifier name))

end VerifierKind

def algorithmNames : List String :=
  ["HS256", "HS384", "HS512", "ES256", "ES384", "RS256", "RS384", "RS512", "PS256", "PS384", "PS512",
    "EdDSA"]

def hashOfAlgorithm? (name : String) : Option Rsa.Hash :=
  if name = "RS256" then some .sha256
  else if name = "RS384" then some .sha384
  else if name = "RS512" then some .sha512
  else none

/-- Reads the algorithm that a header names. All known members must have their types, and a header that
comes as an array must have every one of them. -/
def readAlgorithm (document : Bytes) : Option String := do
  let f ← Json.fields? ["typ", "alg", "cty", "jku", "jwk", "kid", "x5u", "x5c", "x5t", "x5t#S256"]
    (← Json.read document)
  let _ ← f.placed? "typ" Json.text?
  let algorithm ← f.required? "alg" (Json.choice? algorithmNames false)
  let _ ← f.placed? "cty" Json.text?
  let _ ← f.placed? "jku" Json.text?
  let _ ← f.placed? "jwk" (Jwk.ofJson? (Jwk.depthLimit - 1))
  let _ ← f.placed? "kid" Json.text?
  let _ ← f.placed? "x5u" Json.text?
  let _ ← f.placed? "x5c" (Json.listOf? Json.text?)
  let _ ← f.placed? "x5t" Json.text?
  let _ ← f.placed? "x5t#S256" Json.text?
  return algorithm

/-- Reads the claims of a verified payload. As an array the payload must have exactly five items: it is
also read as the five claims that are checked. -/
def readChecked (document : Bytes) : Option Claims := do
  let v ← Json.read document
  let claims ← Claims.ofJson? v
  match v with
  | .array items => if items.length = 5 then some claims else none
  | _ => some claims

/-- A time that is checked: one before the epoch counts as absent. -/
def checkedTime (t : Option Int) : Option Int := t.filter fun n => 0 ≤ n

def Rules.check (r : Rules) (now : Int) (c : Claims) : Except Rejection Unit :=
  let expiry := checkedTime c.expiry
  let start := checkedTime c.notBefore
  if r.requiresExpiry = true ∧ expiry = none then .error .missingExpiry
  else if expiry.any (· < now - r.leeway) then .error .expired
  else if r.checksStart = true ∧ start.any (now + r.leeway < ·) then .error .immature
  else match r.audience, c.audience with
    | some wanted, some a => if a.contains wanted then .ok () else .error .audience
    | _, _ => .ok ()

def splitLast (s : String) : Option (String × String) :=
  let tail := (s.toList.reverse.takeWhile (· != '.')).reverse
  match (s.toList.reverse.dropWhile (· != '.')) with
  | [] => none
  | _ :: head => some (String.ofList head.reverse, String.ofList tail)

def decodeSegment (s : String) : Except Rejection Bytes :=
  match Base64.decode .url s with
  | .ok b => .ok b
  | .error e => .error (.encoding e)

/-- Verifies a token at a time and returns its claims. -/
def Rules.verify (r : Rules) (key : VerificationKey) (now : Int) (token : String) :
    Except Rejection Claims := do
  if !key.isRsa then throw .algorithm
  let some (message, signature) := splitLast token | throw .shape
  let some (header, payload) := splitLast message | throw .shape
  let some algorithm := readAlgorithm (← decodeSegment header) | throw .document
  let some hash := (hashOfAlgorithm? algorithm).filter r.hashes.contains | throw .algorithm
  let signature ← decodeSegment signature
  let genuine := key.rsa?.any fun k => k.verify hash (Bytes.ofText message) signature
  if !genuine then throw .signature
  let some claims := readChecked (← decodeSegment payload) | throw .document
  r.check now claims
  return claims

end DeviceTrust.Token
