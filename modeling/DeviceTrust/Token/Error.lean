import DeviceTrust.Base64
import DeviceTrust.Rsa.Key
import DeviceTrust.Rsa.KeyFile
import DeviceTrust.Storage

/-!
# Why a token is not issued or not accepted

Every cause falls into one of three categories: the authority is misconfigured, the token
is no well-formed token, or it is one and must not be accepted.
-/

namespace DeviceTrust.Token

inductive KeyFileError where
  | missing (path : String)
  | unreadable (path : String) (cause : StorageError)
  | unusable (path : String) (cause : Rsa.KeyFileError)
  deriving DecidableEq, Repr

def KeyFileError.message : KeyFileError → String
  | missing path => "key file not found: " ++ path
  | unreadable path cause => "failed to read key file " ++ path ++ ": " ++ cause.message
  | unusable path cause => "failed to parse key file " ++ path ++ ": " ++ cause.message

/-- The wordings of what lies beneath an error. -/
def KeyFileError.causes : KeyFileError → List String
  | missing _ => []
  | unreadable _ cause => [cause.message]
  | unusable _ cause => [cause.message]

/-- What is wrong with the set-up of an authority. -/
inductive Misconfiguration where
  | unknownVerifier (name : String)
  | emptyKeyring
  | noTrustStore
  | emptySigningKid
  | noSigningKey
  | lifetimeOutOfRange
  deriving DecidableEq, Repr

def Misconfiguration.message : Misconfiguration → String
  | unknownVerifier name => s!"unknown verifier '{name}', expected 'current' or 'legacy'"
  | emptyKeyring => "keyring has no verification keys"
  | noTrustStore => "no trust store configured"
  | emptySigningKid => "signing key has an empty kid"
  | noSigningKey => "no signing key configured"
  | lifetimeOutOfRange => "token ttl out of range"

inductive SigningFault where
  | key (cause : Rsa.KeyError)
  | failed
  deriving DecidableEq, Repr

def SigningFault.message : SigningFault → String
  | key cause => "RSA key invalid: " ++ cause.message
  | failed => "RsaFailedSigning"

inductive Part where
  | header
  | payload
  deriving DecidableEq, Repr

def Part.name : Part → String
  | header => "header"
  | payload => "payload"

inductive Malformation where
  | segments
  | encoding (part : Part) (cause : Base64.Error)
  | document (part : Part)
  deriving DecidableEq, Repr

/-- Wording of a malformation, as far as it is the library's own. -/
def Malformation.message : Malformation → String
  | segments => "expected three dot-separated segments"
  | encoding part cause => part.name ++ " is not base64url: " ++ cause.message
  | document part => part.name ++ " is not valid JSON"

inductive Rejection where
  /-- The key or the token is for another kind of signature. -/
  | algorithm
  /-- There are fewer than three segments. -/
  | shape
  | encoding (cause : Base64.Error)
  | document
  | signature
  | missingExpiry
  | expired
  | immature
  | audience
  deriving DecidableEq, Repr

/-- Wording of a rejection, as far as it is the library's own. -/
def Rejection.message : Rejection → String
  | algorithm => "InvalidAlgorithm"
  | shape => "InvalidToken"
  | encoding cause => "Base64 error: " ++ cause.message
  | document => "JSON error"
  | signature => "InvalidSignature"
  | missingExpiry => "Missing required claim: exp"
  | expired => "ExpiredSignature"
  | immature => "ImmatureSignature"
  | audience => "InvalidAudience"

/-- Why a token is not issued or not accepted. -/
inductive Error where
  | configuration (cause : Misconfiguration)
  | keyFile (cause : KeyFileError)
  | signing (cause : SigningFault)
  | malformed (cause : Malformation)
  | missingKid
  | kidNotAllowed (kid : String)
  | missingCapability
  | bindingMismatch
  | unknownKid (kid : String)
  | rejected (cause : Rejection)
  deriving DecidableEq, Repr

inductive Category where
  | configuration
  | structural
  | authorization
  deriving DecidableEq, Repr

def Category.name : Category → String
  | configuration => "configuration"
  | structural => "structural"
  | authorization => "authorization"

namespace Error

def message : Error → String
  | configuration cause => "token authority misconfigured: " ++ cause.message
  | keyFile cause => cause.message
  | signing cause => "failed to sign token: " ++ cause.message
  | malformed cause => "malformed token: " ++ cause.message
  | missingKid => "token header has no kid"
  | kidNotAllowed kid => "kid " ++ kid ++ " is not allowed for this token class"
  | missingCapability => "token lacks every required capability"
  | bindingMismatch => "token binding does not match"
  | unknownKid kid => "no verification key for kid " ++ kid
  | rejected cause => "invalid signature or expired token: " ++ cause.message

/-- The wordings of what lies beneath an error. -/
def causes : Error → List String
  | keyFile cause => cause.causes
  | signing cause => [cause.message]
  | rejected cause => [cause.message]
  | _ => []

def category : Error → Category
  | configuration _ | keyFile _ | signing _ => .configuration
  | malformed _ | missingKid => .structural
  | kidNotAllowed _ | missingCapability | bindingMismatch | unknownKid _ | rejected _ =>
    .authorization

/-- Whether the token was turned down because it has expired. -/
def isExpired (e : Error) : Bool := e == rejected .expired

end Error

end DeviceTrust.Token
