import DeviceTrust.Failure
import DeviceTrust.KeySet.Schedule
import DeviceTrust.KeySet.Source
import DeviceTrust.Sealing.Codec
import DeviceTrust.Settings.Source

/-!
# Starting the services

From resolved settings come a codec for secrets and a token authority. A key set on the web is
fetched once before the start is over, whatever comes of that, and is the trust store wherever
it is configured; else the keyring is. The first fault ends the start.
-/

namespace DeviceTrust

structure Services where
  codec : Sealing.Codec
  authority : Token.Authority

inductive StartupError where
  | codecKey (cause : Sealing.Error)
  | signingKey (path : String) (cause : Token.KeyFileError)
  | keySet (cause : KeySet.Error)
  | keyring (cause : Token.Error)
  | authority (cause : Token.Error)
  deriving DecidableEq, Repr

def StartupError.failure : StartupError → Failure
  | codecKey cause => Failure.within ⟨cause.message, cause.causes⟩ "invalid codec key"
  | signingKey path cause =>
    Failure.within ⟨cause.message, cause.causes⟩ ("failed to load signing key " ++ path)
  | keySet cause => Failure.within ⟨cause.message, []⟩ "failed to start key set cache"
  | keyring cause => Failure.within ⟨cause.message, cause.causes⟩ "failed to load keyring"
  | authority cause =>
    Failure.within ⟨cause.message, cause.causes⟩ "failed to build token authority"

namespace Settings

def SealingSettings.codec (s : SealingSettings) : Except StartupError Sealing.Codec :=
  (Sealing.Codec.ofKeyText (s.key.map Secret.text)).mapError .codecKey

def TokenSettings.loadSigningKey (s : TokenSettings) (files : Storage) :
    Except StartupError (Option Token.SigningKey) :=
  match s.signingKeyPath with
  | none => .ok none
  | some path =>
    match Token.SigningKey.load files s.signingKid path with
    | .ok key => .ok (some key)
    | .error e => .error (.signingKey path e)

/-- The cache of the settings' key set after the first attempt to fetch it. -/
def KeySetSettings.startCache (s : KeySetSettings) (network : KeySet.Network) (now : Int) :
    Except StartupError KeySet.Cache :=
  match KeySet.Schedule.launch (now * 1000) s.cacheConfig [KeySet.webReply network s.uri] false with
  | .ok schedule => .ok schedule.timeline.cache
  | .error e => .error (.keySet e)

def Resolved.trustStore (s : Resolved) (files : Storage) (network : KeySet.Network) (now : Int) :
    Except StartupError Token.TrustStore :=
  match s.keySet with
  | some k => (k.startCache network now).map .cache
  | none =>
    match Token.Keyring.load files s.token.keyring with
    | .ok ring => .ok (.keyring ring)
    | .error e => .error (.keyring e)

def Resolved.authority (s : Resolved) (files : Storage) (network : KeySet.Network) (now : Int) :
    Except StartupError Token.Authority := do
  let signingKey ← s.token.loadSigningKey files
  let trustStore ← s.trustStore files network now
  (Token.Authority.build (some trustStore) (s.token.verifier.rules s.token.audience) signingKey
    s.token.api s.token.device s.token.issuance.profile).mapError .authority

end Settings

def Services.start (files : Storage) (network : KeySet.Network) (now : Int) (s : Settings.Resolved) :
    Except StartupError Services := do
  let codec ← s.sealing.codec
  let authority ← s.authority files network now
  return ⟨codec, authority⟩

end DeviceTrust
