import DeviceTrust.KeySet.Error
import DeviceTrust.Text.Blank

/-!
# Configuration of a key set cache

How often the cache refreshes by itself, how far apart two attempts must be, and how long
one may take. `validate` names the first fault in a fixed order.
-/

namespace DeviceTrust.KeySet

structure CacheConfig where
  source : String
  refreshInterval : Duration
  /-- Least time between the starts of two attempts. -/
  minRefreshInterval : Duration
  fetchTimeout : Duration
  deriving DecidableEq, Repr

namespace CacheConfig

/-- The usual intervals: a quarter of an hour, a minute and ten seconds. -/
def ofSource (source : String) : CacheConfig :=
  ⟨source, .ofSeconds 900, .ofSeconds 60, .ofSeconds 10⟩

def fault? (c : CacheConfig) : Option ConfigurationFault :=
  if (Text.nonBlank? c.source).isNone then some .blankSource
  else if c.refreshInterval = 0 then some .zeroRefreshInterval
  else if c.fetchTimeout = 0 then some .zeroFetchTimeout
  else if c.refreshInterval < c.minRefreshInterval then
    some (.intervalsCrossed c.minRefreshInterval c.refreshInterval)
  else none

def validate (c : CacheConfig) : Except Error Unit :=
  match c.fault? with
  | some f => .error (.configuration f)
  | none => .ok ()

end CacheConfig

end DeviceTrust.KeySet
