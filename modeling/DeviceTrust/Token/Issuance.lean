import DeviceTrust.Token.KeyFile
import DeviceTrust.Token.Claims
import DeviceTrust.Rsa.Signature
import DeviceTrust.Uuid

/-!
# Issuing tokens

A token is issued to a device for a span of time. What the request does not say about the
bearer, the profile of the issuer does. The signature is over SHA-256, and the header names
nothing but that and the key.
-/

namespace DeviceTrust.Token

/-- What an issuer says about every bearer, as far as a request does not say otherwise. -/
structure Profile where
  issuer : String := "themis"
  audience : String := "XMiDT"
  subject : String := "client:supplied"
  partnerId : String := "comcast"
  trust : String := "1000"
  capabilities : List String := ["x1:issuer:test:.*:all"]
  deriving DecidableEq, Repr

def Profile.describe (p : Profile) : String :=
  Text.describeRecord "IssuanceProfile"
    [("issuer", Text.quoted p.issuer), ("audience", Text.quoted p.audience),
     ("subject", Text.quoted p.subject), ("partner_id", Text.quoted p.partnerId),
     ("trust", Text.quoted p.trust), ("capabilities", Text.describeTexts p.capabilities)]

structure Request where
  binding : String
  lifetime : Duration
  serial : Option String := none
  partnerId : Option String := none
  capabilities : Option (List String) := none
  deriving DecidableEq, Repr

def maxTime : Int := 9223372036854775807

/-- The claims of a token for a request, with two fresh identifiers. A token that would outlive the
greatest time expires at it. -/
def Request.claims (r : Request) (p : Profile) (kid : String) (now : Int) (uuid tokenId : String) :
    Claims where
  kid := kid
  mac := r.binding
  partnerId := r.partnerId.getD p.partnerId
  serial := r.serial.getD ""
  trust := p.trust
  uuid := uuid
  capabilities := r.capabilities.getD p.capabilities
  audience := if p.audience.isEmpty then none else some (.single p.audience)
  expiry := some (min (now + r.lifetime.seconds) maxTime)
  issuedAt := some now
  notBefore := some now
  issuer := p.issuer
  subject := p.subject
  tokenId := tokenId

def header (kid : String) : Json :=
  Json.record [("alg", Json.text "RS256"), ("kid", Json.text kid)]

def signedPart (kid : String) (claims : Claims) : String :=
  Base64.encode .url (Json.print (header kid)) ++ "." ++
    Base64.encode .url (Json.print claims.toJson)

def SigningKey.sign (k : SigningKey) (claims : Claims) : Except SigningFault String :=
  match Rsa.PrivateKey.ofDer k.der with
  | .error e => .error (.key e)
  | .ok key =>
    let part := signedPart k.kid claims
    match key.sign .sha256 (Bytes.ofText part) with
    | some signature => .ok (part ++ "." ++ Base64.encode .url signature)
    | none => .error .failed

def issue (key : Option SigningKey) (p : Profile) (now : Int) (r : Request) (source : RandomSource) :
    Except Error String × RandomSource :=
  match key with
  | none => (.error (.configuration .noSigningKey), source)
  | some k =>
    if maxTime < r.lifetime.seconds then (.error (.configuration .lifetimeOutOfRange), source)
    else
      let (uuid, source) := Uuid.draw source
      let (tokenId, source) := Uuid.draw source
      ((k.sign (r.claims p k.kid now uuid tokenId)).mapError .signing, source)

end DeviceTrust.Token
