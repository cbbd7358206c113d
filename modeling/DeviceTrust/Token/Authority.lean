import DeviceTrust.Token.Compact
import DeviceTrust.Token.Issuance
import DeviceTrust.Token.TrustStore
import DeviceTrust.Token.Verifier

/-!
# The token authority

An authority issues tokens and verifies two classes of them, each under a policy of its
own. Verification goes from the cheap to the dear and stops at the first fault: the key
identifier must be readable and allowed, the claims must show a required capability and the
right binding, the key must be trusted, and only then is the signature looked at. The claims
that are returned are those of the verified token.
-/

namespace DeviceTrust.Token

/-- The identifier of the signing key where none is asked for. -/
def defaultSigningKid : String := "webconfig_key"

inductive TokenClass where
  | api
  | device
  deriving DecidableEq, Repr

structure ClassPolicy where
  allowedKids : List String := []
  /-- One of these must be among the capabilities of a token, unless there are none. -/
  requiredCapabilities : List String := []
  deriving DecidableEq, Repr

namespace ClassPolicy

/-- Whether tokens under a key identifier belong to the class. -/
def allows (p : ClassPolicy) (kid : String) : Bool := p.allowedKids.contains kid

def describe (p : ClassPolicy) : String :=
  Text.describeRecord "TokenClassPolicy"
    [("allowed_kids", Text.describeTexts p.allowedKids),
     ("required_capabilities", Text.describeTexts p.requiredCapabilities)]

end ClassPolicy

structure Authority where
  trustStore : TrustStore
  rules : Rules
  signingKey : Option SigningKey
  apiPolicy : ClassPolicy
  devicePolicy : ClassPolicy
  profile : Profile
  deriving DecidableEq, Repr

namespace Authority

/-- An authority from its parts. It needs a trust store, and its signing key an identifier. -/
def build (trustStore : Option TrustStore) (rules : Rules) (signingKey : Option SigningKey)
    (apiPolicy devicePolicy : ClassPolicy) (profile : Profile) : Except Error Authority :=
  match trustStore with
  | none => .error (.configuration .noTrustStore)
  | some store =>
    if signingKey.any (·.kid.isEmpty) then .error (.configuration .emptySigningKid)
    else .ok ⟨store, rules, signingKey, apiPolicy, devicePolicy, profile⟩

def policy (a : Authority) : TokenClass → ClassPolicy
  | .api => a.apiPolicy
  | .device => a.devicePolicy

def signingKid (a : Authority) : Option String := a.signingKey.map SigningKey.kid

/-- Checks everything about a token for which no key is needed. The answer is the identifier of the key. -/
def screen (a : Authority) (token : String) (cls : TokenClass) (binding : Option String) :
    Except Error String := do
  let kid ← parseKid token
  let policy := a.policy cls
  if !policy.allows kid then throw (.kidNotAllowed kid)
  let unverified ← readClaims token
  if !policy.requiredCapabilities.isEmpty && !unverified.hasAnyCapability policy.requiredCapabilities then
    throw .missingCapability
  if binding.any fun b => !unverified.isBoundTo b then throw .bindingMismatch
  return kid

/-- Verifies a token of a class at a time, and its binding where one is given. The authority that comes with
the answer has the trust store as the look-up left it. -/
def verify (a : Authority) (now : Int) (token : String) (cls : TokenClass) (binding : Option String) :
    Except Error Claims × Authority :=
  match a.screen token cls binding with
  | .error e => (.error e, a)
  | .ok kid =>
    match a.trustStore.resolve kid with
    | (none, store) => (.error (.unknownKid kid), { a with trustStore := store })
    | (some key, store) =>
      ((a.rules.verify key now token).mapError .rejected, { a with trustStore := store })

def issue (a : Authority) (now : Int) (r : Request) (source : RandomSource) :
    Except Error String × RandomSource :=
  Token.issue a.signingKey a.profile now r source

/-- Issues a token, or the empty text where that fails. -/
def generate (a : Authority) (now : Int) (r : Request) (source : RandomSource) :
    String × RandomSource :=
  let (result, source) := a.issue now r source
  (result.toOption.getD "", source)

def describe (a : Authority) : String :=
  Text.describeRecord "TokenAuthority"
    [("verifier", Text.quoted a.rules.name),
     ("signing_key", Text.describeOption (a.signingKey.map SigningKey.describe)),
     ("api_policy", a.apiPolicy.describe), ("device_policy", a.devicePolicy.describe),
     ("profile", a.profile.describe)]

end Authority

end DeviceTrust.Token
