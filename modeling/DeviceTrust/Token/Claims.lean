import DeviceTrust.Json.Decode
import DeviceTrust.Json.Printer
import DeviceTrust.Text.Blank
import DeviceTrust.Text.Quoted

/-!
# Claims of a device token

What a token says about its bearer. A text claim that is absent or `null` is the empty
text, an absent list the empty list, and empty texts and absent numbers are not written;
the list of capabilities always is. Descriptions show neither the binding nor the serial
number.
-/

namespace DeviceTrust.Token

/-- For whom a token is meant: one name, or a list of names. -/
inductive Audience where
  | single (name : String)
  | many (names : List String)
  deriving DecidableEq, Repr

namespace Audience

def names : Audience → List String
  | single a => [a]
  | many as => as

def contains (a : Audience) (name : String) : Bool := a.names.contains name

def toJson : Audience → Json
  | single a => Json.text a
  | many as => Json.texts as

def ofJson? : Json → Option Audience
  | .string s => (Json.unspell s).map single
  | v => (Json.listOf? Json.text? v).map many

def describe : Audience → String
  | single a => "Single(" ++ Text.quoted a ++ ")"
  | many as => "Many(" ++ Text.describeTexts as ++ ")"

end Audience

structure Claims where
  kid : String := ""
  /-- The device that the token is bound to. -/
  mac : String := ""
  partnerId : String := ""
  serial : String := ""
  trust : String := ""
  uuid : String := ""
  capabilities : List String := []
  audience : Option Audience := none
  expiry : Option Int := none
  issuedAt : Option Int := none
  notBefore : Option Int := none
  issuer : String := ""
  subject : String := ""
  tokenId : String := ""
  deriving DecidableEq, Repr

namespace Claims

/-- Names of the claims in the order in which they are written. -/
def names : List String :=
  ["kid", "mac", "partner-id", "serial", "trust", "uuid", "capabilities", "aud", "exp", "iat", "nbf",
    "iss", "sub", "jti"]

def textMember (name value : String) : List (String × Json) :=
  if value.isEmpty then [] else [(name, Json.text value)]

def timeMember (name : String) : Option Int → List (String × Json)
  | some n => [(name, Json.integer n)]
  | none => []

def toJson (c : Claims) : Json :=
  Json.record <|
    textMember "kid" c.kid ++ textMember "mac" c.mac ++ textMember "partner-id" c.partnerId ++
    textMember "serial" c.serial ++ textMember "trust" c.trust ++ textMember "uuid" c.uuid ++
    [("capabilities", Json.texts c.capabilities)] ++
    (match c.audience with
      | some a => [("aud", a.toJson)]
      | none => []) ++
    timeMember "exp" c.expiry ++ timeMember "iat" c.issuedAt ++ timeMember "nbf" c.notBefore ++
    textMember "iss" c.issuer ++ textMember "sub" c.subject ++ textMember "jti" c.tokenId

def ofJson? (v : Json) : Option Claims := do
  let f ← Json.fields? names v
  let text (name : String) : Option String := (f.optional? name Json.text?).map (·.getD "")
  let time (name : String) : Option (Option Int) := f.optional? name Json.int64?
  return {
    kid := ← text "kid"
    mac := ← text "mac"
    partnerId := ← text "partner-id"
    serial := ← text "serial"
    trust := ← text "trust"
    uuid := ← text "uuid"
    capabilities := ((← f.optional? "capabilities" (Json.listOf? Json.text?)).getD [])
    audience := ← f.optional? "aud" Audience.ofJson?
    expiry := ← time "exp"
    issuedAt := ← time "iat"
    notBefore := ← time "nbf"
    issuer := ← text "iss"
    subject := ← text "sub"
    tokenId := ← text "jti" }

def read (document : Bytes) : Option Claims := (Json.read document).bind ofJson?

/-- Whether one of the required capabilities is among those of the token. -/
def hasAnyCapability (c : Claims) (required : List String) : Bool :=
  required.any fun r => c.capabilities.contains r

/-- Whether the token is bound to a device; letters are compared without regard to case. A token without
a binding is bound to nothing. -/
def isBoundTo (c : Claims) (binding : String) : Bool :=
  !c.mac.isEmpty && Text.sameIgnoringCase c.mac binding

/-- Whether the token has expired at a time. One without an expiry never does. -/
def isExpiredAt (c : Claims) (now : Int) : Bool :=
  match c.expiry with
  | some e => e ≤ now
  | none => false

/-- Description that shows neither the binding nor the serial number. -/
def describe (c : Claims) : String :=
  let time (t : Option Int) : String := Text.describeOption (t.map toString)
  let hidden := Text.quoted "[REDACTED]"
  Text.describeRecord "TokenClaims"
    [("kid", Text.quoted c.kid), ("mac", hidden), ("partner_id", Text.quoted c.partnerId),
     ("serial", hidden), ("trust", Text.quoted c.trust), ("uuid", Text.quoted c.uuid),
     ("capabilities", Text.describeTexts c.capabilities),
     ("aud", Text.describeOption (c.audience.map Audience.describe)),
     ("exp", time c.expiry), ("iat", time c.issuedAt), ("nbf", time c.notBefore),
     ("iss", Text.quoted c.issuer), ("sub", Text.quoted c.subject), ("jti", Text.quoted c.tokenId)]

end Claims

end DeviceTrust.Token
