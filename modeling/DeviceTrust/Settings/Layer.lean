import DeviceTrust.Settings.Secret
import DeviceTrust.Token.Verifier

/-!
# Layers of settings

A layer is what one source says about the settings, and every setting of it may be left
open. Laying one layer over another keeps what the upper one says and, where that is silent,
what the lower one says, setting by setting; the entries of a keyring count as one setting.
-/

namespace DeviceTrust.Settings

inductive LogFormat where
  | pretty
  | json
  deriving DecidableEq, Repr

def LogFormat.name : LogFormat → String
  | pretty => "pretty"
  | json => "json"

structure SealingLayer where
  key : Option Secret := none
  deriving DecidableEq, Repr

structure PolicyLayer where
  allowedKids : Option (List String) := none
  capabilities : Option (List String) := none
  deriving DecidableEq, Repr

/-- What issued tokens say about every bearer. -/
structure IssuanceLayer where
  issuer : Option String := none
  audience : Option String := none
  subject : Option String := none
  partnerId : Option String := none
  trust : Option String := none
  capabilities : Option (List String) := none
  deriving DecidableEq, Repr

structure TokenLayer where
  signingKid : Option String := none
  signingKeyPath : Option String := none
  verifier : Option Token.VerifierKind := none
  audience : Option String := none
  /-- Paths of verification keys by identifier, in ascending order. -/
  keyring : Option (List (String × String)) := none
  api : Option PolicyLayer := none
  device : Option PolicyLayer := none
  issuance : Option IssuanceLayer := none
  /-- Lifetime of tokens for which none is asked for, in seconds. -/
  defaultLifetime : Option Nat := none
  deriving DecidableEq, Repr

/-- Settings of a key set on the web; times are in seconds. -/
structure KeySetLayer where
  uri : Option String := none
  refreshInterval : Option Nat := none
  minRefreshInterval : Option Nat := none
  timeout : Option Nat := none
  deriving DecidableEq, Repr

structure LoggingLayer where
  level : Option String := none
  format : Option LogFormat := none
  deriving DecidableEq, Repr

structure Layer where
  sealing : Option SealingLayer := none
  token : Option TokenLayer := none
  keySet : Option KeySetLayer := none
  logging : Option LoggingLayer := none
  deriving DecidableEq, Repr

/-- The upper of two settings, or the lower where the upper is open. -/
def laid {α : Type} (lower upper : Option α) : Option α := upper.or lower

/-- Lays a section under another; one that is missing says nothing. -/
def laidSection {α : Type} (lay : α → α → α) : Option α → Option α → Option α
  | some lower, some upper => some (lay lower upper)
  | none, upper => upper
  | lower, none => lower

def SealingLayer.under (a b : SealingLayer) : SealingLayer where
  key := laid a.key b.key

def PolicyLayer.under (a b : PolicyLayer) : PolicyLayer where
  allowedKids := laid a.allowedKids b.allowedKids
  capabilities := laid a.capabilities b.capabilities

def IssuanceLayer.under (a b : IssuanceLayer) : IssuanceLayer where
  issuer := laid a.issuer b.issuer
  audience := laid a.audience b.audience
  subject := laid a.subject b.subject
  partnerId := laid a.partnerId b.partnerId
  trust := laid a.trust b.trust
  capabilities := laid a.capabilities b.capabilities

def TokenLayer.under (a b : TokenLayer) : TokenLayer where
  signingKid := laid a.signingKid b.signingKid
  signingKeyPath := laid a.signingKeyPath b.signingKeyPath
  verifier := laid a.verifier b.verifier
  audience := laid a.audience b.audience
  keyring := laid a.keyring b.keyring
  api := laidSection PolicyLayer.under a.api b.api
  device := laidSection PolicyLayer.under a.device b.device
  issuance := laidSection IssuanceLayer.under a.issuance b.issuance
  defaultLifetime := laid a.defaultLifetime b.defaultLifetime

def KeySetLayer.under (a b : KeySetLayer) : KeySetLayer where
  uri := laid a.uri b.uri
  refreshInterval := laid a.refreshInterval b.refreshInterval
  minRefreshInterval := laid a.minRefreshInterval b.minRefreshInterval
  timeout := laid a.timeout b.timeout

def LoggingLayer.under (a b : LoggingLayer) : LoggingLayer where
  level := laid a.level b.level
  format := laid a.format b.format

/-- Lays `a` under `b`. -/
def Layer.under (a b : Layer) : Layer where
  sealing := laidSection SealingLayer.under a.sealing b.sealing
  token := laidSection TokenLayer.under a.token b.token
  keySet := laidSection KeySetLayer.under a.keySet b.keySet
  logging := laidSection LoggingLayer.under a.logging b.logging

end DeviceTrust.Settings
