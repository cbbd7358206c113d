import DeviceTrust.Storage

/-!
# Why settings are refused

Settings fail to load because a file cannot be read, because a value is none of its kind,
because values do not fit together, or because a secret is not where a variable says.
-/

namespace DeviceTrust.Settings

inductive ValueFault where
  | blank
  | zero
  | notCount (text : String)
  | unknownVerifier (name : String)
  | unknownFormat (name : String)
  /-- An entry of a keyring whose identifier is blank. -/
  | blankKid (kid : String)
  /-- An entry of a keyring without an equals sign. -/
  | notPair (entry : String)
  deriving DecidableEq, Repr

def ValueFault.message : ValueFault → String
  | blank => "must not be empty"
  | zero => "must be greater than zero"
  | notCount text => s!"invalid u64 value '{text}'"
  | unknownVerifier name => s!"unknown verifier '{name}', expected 'current' or 'legacy'"
  | unknownFormat name => s!"unknown log format '{name}', expected 'pretty' or 'json'"
  | blankKid kid => s!"keyring entry with empty kid '{kid}'"
  | notPair entry => s!"expected kid=path, got '{entry}'"

inductive Inconsistency where
  | intervalsCrossed (minimum refresh : Nat)
  | noTrustStore
  deriving DecidableEq, Repr

def Inconsistency.message : Inconsistency → String
  | intervalsCrossed minimum refresh =>
    s!"jwks.min_refresh_interval_secs ({minimum}) exceeds jwks.refresh_interval_secs ({refresh})"
  | noTrustStore => "no trust store configured: set token.keyring or jwks.uri"

/-- Why a secret cannot be had: the file that a variable names cannot be read. -/
structure SecretError where
  variableName : String
  path : String
  cause : StorageError
  deriving DecidableEq, Repr

def SecretError.message (e : SecretError) : String :=
  e.variableName ++ " points at " ++ e.path ++ ", which could not be read: " ++ e.cause.message

inductive Error where
  | unreadable (path : String) (cause : StorageError)
  /-- The document does not parse, or a value in it has the wrong type. -/
  | unparsable (path : String)
  | value (key : String) (fault : ValueFault)
  | inconsistent (fault : Inconsistency)
  | secret (cause : SecretError)
  deriving DecidableEq, Repr

namespace Error

/-- Wording of an error; what a parser says is not part of it. -/
def message : Error → String
  | unreadable path cause => "failed to read config file " ++ path ++ ": " ++ cause.message
  | unparsable path => "failed to parse config file " ++ path
  | value key fault => "invalid value for " ++ key ++ ": " ++ fault.message
  | inconsistent fault => "invalid configuration: " ++ fault.message
  | secret cause => "failed to load secret: " ++ cause.message

/-- The wordings of what lies beneath an error. -/
def causes : Error → List String
  | unreadable _ cause => [cause.message]
  | _ => []

end Error

end DeviceTrust.Settings
