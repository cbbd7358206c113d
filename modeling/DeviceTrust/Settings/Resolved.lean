import DeviceTrust.KeySet.CacheConfig
import DeviceTrust.Settings.Layer
import DeviceTrust.Token.Authority

/-!
# Resolved settings

Resolving a layer fills what it leaves open with defaults and refuses what makes no sense, one
section after the other and each in a fixed order. At the end there must be a trust store: a
keyring with entries or a key set with an address.
-/

namespace DeviceTrust.Settings

structure SealingSettings where
  key : Option Secret
  deriving DecidableEq, Repr

def SealingSettings.isKeyed (s : SealingSettings) : Bool := s.key.isSome

def SealingSettings.describe (s : SealingSettings) : String :=
  Text.describeRecord "CodecConfig" [("key", Text.describeOption (s.key.map Secret.describe))]

/-- A blank key is no key. -/
def SealingLayer.resolve (l : SealingLayer) : SealingSettings :=
  ⟨l.key.filter fun k => !k.isBlank⟩

structure TokenSettings where
  signingKid : String
  signingKeyPath : Option String
  verifier : Token.VerifierKind
  audience : Option String
  keyring : List (String × String)
  api : Token.ClassPolicy
  device : Token.ClassPolicy
  /-- What departs from the usual profile of an issuer. -/
  issuance : IssuanceLayer
  /-- Lifetime of tokens for which none is asked for, in seconds. -/
  defaultLifetime : Nat
  deriving DecidableEq, Repr

def TokenSettings.canIssue (s : TokenSettings) : Bool := s.signingKeyPath.isSome

/-- The usual lifetime of a token: a day. -/
def usualLifetime : Nat := 86400

/-- A class that names no identifiers allows that of the signing key; one that names none on purpose allows
none. -/
def PolicyLayer.resolve (l : PolicyLayer) (signingKid : String) : Token.ClassPolicy :=
  ⟨l.allowedKids.getD [signingKid], l.capabilities.getD []⟩

/-- The usual profile of an issuer, with what a layer says otherwise. -/
def IssuanceLayer.profile (l : IssuanceLayer) : Token.Profile :=
  let usual : Token.Profile := {}
  { issuer := l.issuer.getD usual.issuer
    audience := l.audience.getD usual.audience
    subject := l.subject.getD usual.subject
    partnerId := l.partnerId.getD usual.partnerId
    trust := l.trust.getD usual.trust
    capabilities := l.capabilities.getD usual.capabilities }

def TokenLayer.resolve (l : TokenLayer) : Except Error TokenSettings :=
  let signingKid := l.signingKid.getD Token.defaultSigningKid
  let defaultLifetime := l.defaultLifetime.getD usualLifetime
  let keyring := l.keyring.getD []
  if (Text.nonBlank? signingKid).isNone then .error (.value "token.signing_kid" .blank)
  else if defaultLifetime = 0 then .error (.value "token.default_ttl_secs" .zero)
  else match keyring.find? fun (kid, _) => (Text.nonBlank? kid).isNone with
    | some (kid, _) => .error (.value "token.keyring" (.blankKid kid))
    | none => .ok
      { signingKid := signingKid
        signingKeyPath := l.signingKeyPath
        verifier := l.verifier.getD .default
        audience := l.audience.filter fun a => !a.isEmpty
        keyring := keyring
        api := (l.api.getD {}).resolve signingKid
        device := (l.device.getD {}).resolve signingKid
        issuance := l.issuance.getD {}
        defaultLifetime := defaultLifetime }

/-- Settings of a key set on the web; times are in seconds. -/
structure KeySetSettings where
  uri : String
  refreshInterval : Nat
  minRefreshInterval : Nat
  timeout : Nat
  deriving DecidableEq, Repr

def KeySetSettings.cacheConfig (s : KeySetSettings) : KeySet.CacheConfig :=
  ⟨s.uri, .ofSeconds s.refreshInterval, .ofSeconds s.minRefreshInterval, .ofSeconds s.timeout⟩

/-- Resolves the section of the key set. Without an address there is none, whatever else is said. -/
def KeySetLayer.resolve (l : KeySetLayer) : Except Error (Option KeySetSettings) :=
  match l.uri.filter fun u => (Text.nonBlank? u).isSome with
  | none => .ok none
  | some uri =>
    let refreshInterval := l.refreshInterval.getD 900
    let minRefreshInterval := l.minRefreshInterval.getD 60
    let timeout := l.timeout.getD 10
    if refreshInterval = 0 then .error (.value "jwks.refresh_interval_secs" .zero)
    else if minRefreshInterval = 0 then .error (.value "jwks.min_refresh_interval_secs" .zero)
    else if timeout = 0 then .error (.value "jwks.timeout_secs" .zero)
    else if refreshInterval < minRefreshInterval then
      .error (.inconsistent (.intervalsCrossed minRefreshInterval refreshInterval))
    else .ok (some ⟨uri, refreshInterval, minRefreshInterval, timeout⟩)

structure LoggingSettings where
  level : String := "info"
  format : LogFormat := .pretty
  deriving DecidableEq, Repr

def LoggingLayer.resolve (l : LoggingLayer) : LoggingSettings :=
  let usual : LoggingSettings := {}
  ⟨l.level.getD usual.level, l.format.getD usual.format⟩

structure Resolved where
  sealing : SealingSettings
  token : TokenSettings
  /-- A key set on the web. Where there is none the keyring is the trust store. -/
  keySet : Option KeySetSettings
  logging : LoggingSettings
  deriving DecidableEq, Repr

def Resolved.keyFiles (s : Resolved) : List String :=
  s.token.signingKeyPath.toList ++ s.token.keyring.map Prod.snd

def Layer.resolve (l : Layer) : Except Error Resolved := do
  let token ← (l.token.getD {}).resolve
  let keySet ← match l.keySet with
    | some k => k.resolve
    | none => .ok none
  if token.keyring.isEmpty && keySet.isNone then throw (.inconsistent .noTrustStore)
  return ⟨(l.sealing.getD {}).resolve, token, keySet, (l.logging.getD {}).resolve⟩

end DeviceTrust.Settings
