import DeviceTrust.Named
import DeviceTrust.Settings.Layer
import DeviceTrust.Text.Count

/-!
# Settings in environment variables

Each setting has a variable, and one that is set to nothing counts as unset, with the signing
identifier for an exception. A list is separated by commas, and a keyring is a list of pairs
with an equals sign between identifier and path. Variables are read in a fixed order, and the
first fault counts.
-/

namespace DeviceTrust.Settings

/-- The value of a variable, unless it is empty. -/
def Environment.filled? (env : Environment) (name : String) : Option String :=
  (env name).filter fun v => !v.isEmpty

/-- The parts of a list between commas, trimmed, without the blank ones. -/
def listParts (value : String) : List String := (Text.split ',' value).filterMap Text.nonBlank?

def Environment.list? (env : Environment) (name : String) : Option (List String) :=
  (env.filled? name).map listParts

def Environment.count? (env : Environment) (name : String) : Except Error (Option Nat) :=
  match env.filled? name with
  | none => .ok none
  | some v =>
    match Text.count? v with
    | some n => .ok (some n)
    | none => .error (.value name (.notCount v))

/-- Splits an entry of a keyring at its first equals sign. -/
def pairOf? (entry : String) : Option (String × String) :=
  match entry.toList.dropWhile (· != '=') with
  | [] => none
  | _ :: path =>
    some (Text.trim (String.ofList (entry.toList.takeWhile (· != '='))), Text.trim (String.ofList path))

/-- Reads the entries of a keyring up to the first that is no pair. -/
def pairsOf : List String → Except ValueFault (List (String × String))
  | [] => .ok []
  | entry :: rest =>
    match pairOf? entry with
    | none => .error (.notPair entry)
    | some pair => (pairsOf rest).map (pair :: ·)

/-- Reads a keyring; of two entries under one identifier the later counts. -/
def Environment.keyring? (env : Environment) (name : String) :
    Except Error (Option (List (String × String))) :=
  match env.list? name with
  | none => .ok none
  | some entries =>
    match pairsOf entries with
    | .ok pairs => .ok (some (Named.ofList pairs))
    | .error fault => .error (.value name fault)

/-- Reads the name of a generation of rules, in any case. -/
def verifierNamed? (name : String) : Except ValueFault Token.VerifierKind :=
  if Text.sameIgnoringCase name "current" then .ok .current
  else if Text.sameIgnoringCase name "legacy" then .ok .legacy
  else .error (.unknownVerifier name)

def LogFormat.ofName (name : String) : Except ValueFault LogFormat :=
  if Text.sameIgnoringCase name "pretty" then .ok .pretty
  else if Text.sameIgnoringCase name "json" then .ok .json
  else .error (.unknownFormat name)

/-- Reads a value that may be unset, and names the setting where it is at fault. -/
def namedSetting {α : Type} (key : String) (read : String → Except ValueFault α) :
    Option String → Except Error (Option α)
  | none => .ok none
  | some v =>
    match read v with
    | .ok x => .ok (some x)
    | .error fault => .error (.value key fault)

def codecKeyVariable : String := "WEBCONFIG_CODEC_KEY"

def Environment.sealingLayer (files : Storage) (env : Environment) : Except Error SealingLayer :=
  match Secret.load files env codecKeyVariable with
  | .ok key => .ok ⟨key⟩
  | .error e => .error (.secret e)

def Environment.policyLayer (env : Environment) (cls : String) : PolicyLayer where
  allowedKids := env.list? ("WEBCONFIG_TOKEN_" ++ cls ++ "_ALLOWED_KIDS")
  capabilities := env.list? ("WEBCONFIG_TOKEN_" ++ cls ++ "_CAPABILITIES")

/-- What issued tokens say about every bearer. -/
def Environment.issuanceLayer (env : Environment) : IssuanceLayer where
  issuer := env.filled? "WEBCONFIG_TOKEN_ISSUER"
  audience := env.filled? "WEBCONFIG_TOKEN_ISSUED_AUDIENCE"
  subject := env.filled? "WEBCONFIG_TOKEN_SUBJECT"
  partnerId := env.filled? "WEBCONFIG_TOKEN_PARTNER_ID"
  trust := env.filled? "WEBCONFIG_TOKEN_TRUST"
  capabilities := env.list? "WEBCONFIG_TOKEN_CAPABILITIES"

def Environment.tokenLayer (env : Environment) : Except Error TokenLayer := do
  let verifier ← namedSetting "WEBCONFIG_TOKEN_VERIFIER" verifierNamed?
    (env.filled? "WEBCONFIG_TOKEN_VERIFIER")
  let keyring ← env.keyring? "WEBCONFIG_TOKEN_KEYRING"
  let defaultLifetime ← env.count? "WEBCONFIG_TOKEN_DEFAULT_TTL_SECS"
  return { signingKid := env "WEBCONFIG_TOKEN_SIGNING_KID"
           signingKeyPath := env.filled? "WEBCONFIG_TOKEN_SIGNING_KEY_PATH"
           verifier := verifier
           audience := env.filled? "WEBCONFIG_TOKEN_AUDIENCE"
           keyring := keyring
           api := some (env.policyLayer "API")
           device := some (env.policyLayer "DEVICE")
           issuance := some env.issuanceLayer
           defaultLifetime := defaultLifetime }

def Environment.keySetLayer (env : Environment) : Except Error KeySetLayer := do
  let refreshInterval ← env.count? "WEBCONFIG_JWKS_REFRESH_INTERVAL_SECS"
  let minRefreshInterval ← env.count? "WEBCONFIG_JWKS_MIN_REFRESH_INTERVAL_SECS"
  let timeout ← env.count? "WEBCONFIG_JWKS_TIMEOUT_SECS"
  return ⟨env.filled? "WEBCONFIG_JWKS_URI", refreshInterval, minRefreshInterval, timeout⟩

def Environment.loggingLayer (env : Environment) : Except Error LoggingLayer := do
  let format ← namedSetting "logging.format" LogFormat.ofName
    (env.filled? "WEBCONFIG_LOGGING_FORMAT")
  return ⟨env.filled? "WEBCONFIG_LOGGING_LEVEL", format⟩

/-- The layer of the environment. It has every section, whether or not anything in it is set. -/
def Environment.layer (files : Storage) (env : Environment) : Except Error Layer := do
  let sealing ← env.sealingLayer files
  let token ← env.tokenLayer
  let keySet ← env.keySetLayer
  let logging ← env.loggingLayer
  return ⟨some sealing, some token, some keySet, some logging⟩

/-- The variables that settings may come from. -/
def variableNames : List String :=
  [codecKeyVariable, Secret.fileVariable codecKeyVariable] ++
  ["SIGNING_KID", "SIGNING_KEY_PATH", "VERIFIER", "AUDIENCE", "KEYRING", "API_ALLOWED_KIDS",
    "API_CAPABILITIES", "DEVICE_ALLOWED_KIDS", "DEVICE_CAPABILITIES", "ISSUER", "ISSUED_AUDIENCE",
    "SUBJECT", "PARTNER_ID", "TRUST", "CAPABILITIES", "DEFAULT_TTL_SECS"].map ("WEBCONFIG_TOKEN_" ++ ·) ++
  ["URI", "REFRESH_INTERVAL_SECS", "MIN_REFRESH_INTERVAL_SECS", "TIMEOUT_SECS"].map
    ("WEBCONFIG_JWKS_" ++ ·) ++
  ["LEVEL", "FORMAT"].map ("WEBCONFIG_LOGGING_" ++ ·)

end DeviceTrust.Settings
