import DeviceTrust.Calendar
import DeviceTrust.KeySet.Basic
import DeviceTrust.KeySet.CacheConfig

/-!
# The shared state of a key set cache

A cache holds the key set it published last and decides who may fetch the next one: one
attempt at a time, and none sooner after the start of the one before than the configuration
allows. A failed attempt changes neither the keys nor the time they were published at. Asking
for a key that is not there stores a wake-up for a refresh loop.
-/

namespace DeviceTrust.KeySet

/-- The state that all handles of a cache share. Times are milliseconds since the cache was made. -/
structure Cache where
  config : CacheConfig
  keys : KeySet := .empty
  lastAttempt : Option Nat := none
  lastRefreshed : Option Moment := none
  locked : Bool := false
  wake : Bool := false
  deriving DecidableEq, Repr

/-- What the source of keys does when it is asked: how long it takes, and what it then says. -/
structure Reply where
  delay : Duration
  result : Except Error KeySet

/-- What becomes of a request for a refresh before anything is fetched. -/
inductive Admission where
  | inFlight
  | rateLimited (retryIn : Duration)
  | admitted
  deriving DecidableEq, Repr

inductive Outcome where
  | refreshed (keys : Nat)
  | inFlight
  | rateLimited (retryIn : Duration)
  | failed (error : Error)
  deriving DecidableEq, Repr

/-- How long an attempt takes: never longer than its limit. -/
def Reply.duration (r : Reply) (limit : Duration) : Duration := min r.delay limit

/-- What an attempt comes to: a set that is not empty and came within the limit, or an error. -/
def Reply.outcome (r : Reply) (limit : Duration) : Except Error KeySet :=
  if limit < r.delay then .error (.timeout limit)
  else match r.result with
    | .ok keys => if keys.isEmpty then .error (.document .empty) else .ok keys
    | .error e => .error e

namespace Cache

/-- A cache without keys. Its configuration must be free of faults. -/
def new (config : CacheConfig) : Except Error Cache :=
  match config.validate with
  | .ok () => .ok { config }
  | .error e => .error e

/-- How long the rate limit still forbids an attempt. -/
def remaining (c : Cache) (now : Nat) : Duration :=
  match c.lastAttempt with
  | some t => c.config.minRefreshInterval - (now - t)
  | none => 0

/-- Decides on a request for a refresh. An attempt under way answers before the rate limit does. -/
def admission (c : Cache) (now : Nat) : Admission :=
  if c.locked then .inFlight
  else if c.remaining now = 0 then .admitted
  else .rateLimited (c.remaining now)

def begin (c : Cache) (now : Nat) : Cache := { c with locked := true, lastAttempt := some now }

/-- Ends an attempt: publishes the keys it brought, or leaves everything as it was. -/
def finish (c : Cache) (wall : Moment) : Except Error KeySet → Cache
  | .ok keys => { c with locked := false, keys, lastRefreshed := some wall }
  | .error _ => { c with locked := false }

def abandon (c : Cache) : Cache := { c with locked := false }

/-- Looks up a key; a miss stores a wake-up. -/
def resolve (c : Cache) (kid : String) : Option VerificationKey × Cache :=
  match c.keys.get? kid with
  | some key => (some key, c)
  | none => (none, { c with wake := true })

/-- Description by the source, the identifiers and the time of publication. -/
def describe (c : Cache) (source : String) : String :=
  Text.describeRecord "KeySetCache"
    [("source", Text.quoted source), ("kids", Text.describeTexts c.keys.kids),
     ("last_refreshed", Text.describeOption (c.lastRefreshed.map Moment.describe))]

end Cache

end DeviceTrust.KeySet
