import DeviceTrust.CommandLine.Run
import Std.Async.DNS
import Std.Async.TCP
import Std.Async.Timer
import Std.Time.DateTime.Timestamp

/-!
# The program

Gathers what a run depends on, and shows what the run leaves behind. Files are looked at before
the run: first those that settings come from, then those that the settings name; and the key
set is asked for beforehand if the command needs it. All decisions are those of
`CommandLine.World.run`. Encrypted connections are not made, so their hosts are out of reach.
-/

namespace DeviceTrust.Program

open Std.Async

def observe (path : String) : IO (Except StorageError StorageEntry) := do
  try
    return .ok (.file (← IO.FS.readBinFile path).toList)
  catch
    | .inappropriateType none _ _ => return .ok .directory
    | .inappropriateType (some _) _ _ => return .error .notDirectory
    | .permissionDenied _ _ _ => return .ok .closed
    | _ => return .error .missing

def observeAll (paths : List String) : IO (List (String × Except StorageError StorageEntry)) :=
  paths.mapM fun path => return (path, ← observe path)

def environment : IO Settings.Environment := do
  let known ← CommandLine.variableNames.mapM fun name => return (name, ← IO.getEnv name)
  return fun name => (known.lookup name).join

/-- Everything that a connection brings before it is closed. -/
def receive (socket : TCP.Socket.Client) : Async ByteArray := do
  let mut received := ByteArray.empty
  repeat
    match ← socket.recv? 65536 with
    | some bytes => received := received ++ bytes
    | none => break
  return received

def connect (host : String) (port : UInt16) : Async TCP.Socket.Client := do
  for address in ← DNS.getAddrInfo host (toString port) do
    let place := match address with
      | .v4 a => Std.Net.SocketAddress.v4 ⟨a, port⟩
      | .v6 a => Std.Net.SocketAddress.v6 ⟨a, port⟩
    try
      let socket ← TCP.Socket.Client.mk
      socket.connect place
      return socket
    catch _ => continue
  throw (IO.userError "no address takes connections")

/-- Sends a request and waits for what becomes of it. -/
def converse (r : Web.Request) : Async KeySet.Exchange := do
  if r.isEncrypted then return .unreachable
  let host := (r.host.dropPrefix "[").dropSuffix "]"
  let connection ← try some <$> connect host.copy r.port.toUInt16 catch _ => pure none
  match connection with
  | none => return .unreachable
  | some socket =>
    try
      socket.send (r.text KeySet.requestFields).toUTF8
      return .ofBytes (← receive socket).toList
    catch _ => return .dropped

/-- Waits for an answer for some milliseconds. -/
def converseWithin (milliseconds : Nat) (r : Web.Request) : Async KeySet.Exchange :=
  Async.race (converse r) do
    sleep (.ofNat milliseconds)
    return .silent

/-- The web as far as a command with these settings needs it. -/
def network (command : CommandLine.Command) (s : Settings.Resolved) : IO KeySet.Network := do
  match s.keySet with
  | none => return fun _ => .unreachable
  | some k =>
    match Web.Request.ofAddress? k.uri with
    | none => return fun _ => .unreachable
    | some r =>
      if command.usesWeb then
        let exchange ← (converseWithin (k.timeout * 1000) r).block
        return fun _ => exchange
      else return fun _ => .unreachable

/-- Everything that a run on these arguments depends on. -/
def world (args : List String) : IO CommandLine.World := do
  let env ← environment
  let source := (← IO.getRandomBytes 64).toList
  let now := (← Std.Time.Timestamp.now).toSecondsSinceUnixEpoch.val
  let bare : CommandLine.World := ⟨.empty, env, fun _ => .unreachable, now, source⟩
  match CommandLine.Invocation.read env args with
  | .error _ => return bare
  | .ok invocation =>
    let known ← observeAll (invocation.settingsFiles env)
    let w := { bare with files := .ofObservations known }
    match w.settings invocation.settingsPath with
    | .error _ => return w
    | .ok settings =>
      let keys ← observeAll settings.keyFiles
      return { w with files := .ofObservations (known ++ keys)
                      network := ← network invocation.command settings }

end DeviceTrust.Program

def main (args : List String) : IO UInt32 := do
  let w ← DeviceTrust.Program.world args
  let outcome := w.run args
  IO.print outcome.output
  match outcome.failure with
  | some failure => IO.eprintln failure.report
  | none => if outcome.exitCode ≠ 0 then IO.eprintln DeviceTrust.CommandLine.helpText
  return outcome.exitCode.toUInt32
