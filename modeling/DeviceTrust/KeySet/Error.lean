import DeviceTrust.Duration

/-!
# Why a key set cannot be had

A fault is *retryable* when a later attempt may succeed without anyone doing anything
about it.
-/

namespace DeviceTrust.KeySet

inductive NetworkFault where
  /-- The address is no absolute web address. -/
  | address
  /-- The connection failed or was closed before an answer. -/
  | connection
  /-- No answer in time. -/
  | silence
  deriving DecidableEq, Repr

inductive DocumentFault where
  | unreadable
  /-- No entry has both an identifier and a key. -/
  | unusable
  /-- It was read, and holds no keys. -/
  | empty
  /-- A fault that the source reports in its own words. -/
  | reported (text : String)
  deriving DecidableEq, Repr

inductive ConfigurationFault where
  | blankSource
  | zeroRefreshInterval
  | zeroFetchTimeout
  | intervalsCrossed (minimum refresh : Duration)
  /-- A fault that the source reports in its own words. -/
  | reported (text : String)
  deriving DecidableEq, Repr

inductive Error where
  | network (fault : NetworkFault)
  | timeout (limit : Duration)
  | status (code : Nat)
  | document (fault : DocumentFault)
  | configuration (fault : ConfigurationFault)
  deriving DecidableEq, Repr

/-- Wording of a document fault; what a parser says is not part of it. -/
def DocumentFault.message? : DocumentFault → Option String
  | unreadable => none
  | unusable => some "document contains no usable keys"
  | empty => some "key set contains no keys"
  | reported text => some text

def ConfigurationFault.message : ConfigurationFault → String
  | blankSource => "source uri is empty"
  | zeroRefreshInterval => "refresh interval must be non-zero"
  | zeroFetchTimeout => "fetch timeout must be non-zero"
  | intervalsCrossed minimum refresh =>
    "min refresh interval " ++ minimum.describe ++ " exceeds refresh interval " ++ refresh.describe
  | reported text => text

/-- Wording of an error, as far as it is the library's own. -/
def Error.message : Error → String
  | network _ => "key set request failed"
  | timeout limit => "key set fetch timed out after " ++ limit.describe
  | status code => s!"key set endpoint returned status {code}"
  | document fault => "invalid key set document: " ++ fault.message?.getD ""
  | configuration fault => "invalid key set configuration: " ++ fault.message

/-- Whether the wording of an error is all the library's own. -/
def Error.isWorded : Error → Bool
  | network _ => false
  | document .unreadable => false
  | _ => true

/-- Whether a later attempt may succeed by itself. -/
def Error.isRetryable : Error → Bool
  | network .address => false
  | network _ => true
  | timeout _ => true
  | status code => [408, 429, 500, 502, 503, 504].contains code
  | _ => false

end DeviceTrust.KeySet
