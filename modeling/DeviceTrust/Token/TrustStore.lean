import DeviceTrust.KeySet.Cache
import DeviceTrust.Token.KeyFile

/-!
# Trust stores

Verification keys come from a keyring, which never changes, or from the cache of a key set on
the web. Looking up a key that is not there leaves a wake-up in a cache and nothing in a keyring.
-/

namespace DeviceTrust.Token

inductive TrustStore where
  | keyring (ring : Keyring)
  | cache (cache : KeySet.Cache)
  deriving DecidableEq, Repr

namespace TrustStore

def keys : TrustStore → KeySet
  | keyring ring => ring.keys
  | cache c => c.keys

/-- Looks up a key; the store may change with that. -/
def resolve : TrustStore → String → Option VerificationKey × TrustStore
  | keyring ring, kid => (ring.keys.get? kid, keyring ring)
  | cache c, kid => ((c.resolve kid).1, cache (c.resolve kid).2)

end TrustStore

end DeviceTrust.Token
