import DeviceTrust.KeySet.Cache
import DeviceTrust.Web.Request
import DeviceTrust.Web.Response

/-!
# Fetching a key set from the web

A key set document is asked for at a web address. The answer counts if its status says
success; what the network does is given as data.
-/

namespace DeviceTrust.KeySet

inductive Exchange where
  /-- No connection can be made. -/
  | unreachable
  /-- The connection is closed before an answer. -/
  | dropped
  | silent
  | answered (status : Nat) (body : Bytes)
  deriving Inhabited

/-- What becomes of a request to an address. -/
abbrev Network := String → Exchange

/-- What becomes of a request is told by the bytes that came before the connection was closed. A failure that
the status tells counts even if the body is cut short. -/
def Exchange.ofBytes (received : Bytes) : Exchange :=
  match Web.Response.ofBytes? received with
  | none => .dropped
  | some r =>
    match r.body? with
    | some body => .answered r.status body
    | none => if Web.Response.isSuccess r.status then .dropped else .answered r.status []

def userAgent : String := "webconfig-jwks/0.1.0"

def requestFields : List (String × String) :=
  [("accept", "application/json"), ("user-agent", userAgent)]

def fetch (network : Network) (uri : String) : Except Error KeySet :=
  if !Web.isAddress uri then .error (.network .address)
  else match network uri with
    | .unreachable => .error (.network .connection)
    | .dropped => .error (.network .connection)
    | .silent => .error (.network .silence)
    | .answered status body =>
      if Web.Response.isSuccess status then KeySet.ofDocument body else .error (.status status)

/-- The reply of a web source. A request that is sent takes a moment. -/
def webReply (network : Network) (uri : String) : Reply :=
  ⟨if Web.isAddress uri then 1 else 0, fetch network uri⟩

end DeviceTrust.KeySet
