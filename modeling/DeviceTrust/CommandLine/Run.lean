import DeviceTrust.CommandLine.Command
import DeviceTrust.Json.Printer
import DeviceTrust.Services

/-!
# Running commands

A command is run against everything it may depend on: files, environment, network, clock and
random source. It either prints something or fails with a report; printing a fresh key and the
identifier in a token needs no settings, everything else loads them first.
-/

namespace DeviceTrust.CommandLine

structure World where
  files : Storage
  env : Settings.Environment
  network : KeySet.Network
  /-- Seconds since the start of 1970. -/
  now : Int
  source : RandomSource

def Invocation.settingsFiles (i : Invocation) (env : Settings.Environment) : List String :=
  i.settingsPath.getD Settings.usualPath ::
    (Settings.Secret.path? env Settings.codecKeyVariable).toList

def Command.usesWeb : Command → Bool
  | generateKey _ | encrypt _ | decrypt _ | tokenKid _ => false
  | issueToken _ _ _ _ | verifyToken _ _ _ | fetchKeySet => true

def World.settings (w : World) (path : Option String) : Except Failure Settings.Resolved :=
  let report (context : String) (e : Settings.Error) : Failure :=
    Failure.within ⟨e.message, e.causes⟩ context
  match path with
  | some path =>
    (Settings.loadFrom w.files path w.env).mapError
      (report ("failed to load configuration from " ++ path))
  | none =>
    (Settings.loadFrom w.files Settings.usualPath w.env).mapError
      (report "failed to load configuration")

def World.services (w : World) (s : Settings.Resolved) : Except Failure Services :=
  (Services.start w.files w.network w.now s).mapError StartupError.failure

def line (text : String) : String := text ++ "\n"

def tokenFailure (e : Token.Error) : Failure := ⟨e.message, e.causes⟩

def rejection (e : Token.Error) : Failure :=
  { message := "token rejected (" ++ e.category.name ++ "): " ++ e.message }

/-- Runs a command; the answer is what it prints. -/
def World.perform (w : World) (path : Option String) : Command → Except Failure String
  | .generateKey size =>
    match Sealing.KeySize.ofLength size with
    | .ok size => .ok (line (Sealing.Key.generate size w.source).1.toBase64)
    | .error e => .error (Failure.within ⟨e.message, e.causes⟩ "unsupported key size")
  | .tokenKid token => ((Token.parseKid token).map line).mapError tokenFailure
  | .encrypt plain => do
    let s ← w.settings path
    let codec ← s.sealing.codec.mapError StartupError.failure
    ((codec.sealText plain w.source).1.map line).mapError fun e => ⟨e.message, e.causes⟩
  | .decrypt sealedText => do
    let s ← w.settings path
    let codec ← s.sealing.codec.mapError StartupError.failure
    ((codec.openText sealedText).map line).mapError fun e =>
      Failure.within ⟨e.message, e.causes⟩ "failed to open sealed secret"
  | .issueToken mac lifetime serial partnerId => do
    let s ← w.settings path
    let services ← w.services s
    let request : Token.Request :=
      { binding := mac, lifetime := .ofSeconds (lifetime.getD s.token.defaultLifetime),
        serial := serial, partnerId := partnerId }
    ((services.authority.issue w.now request w.source).1.map line).mapError tokenFailure
  | .verifyToken token cls mac => do
    let s ← w.settings path
    let services ← w.services s
    ((services.authority.verify w.now token cls mac).1.map fun claims =>
      line (Json.prettyText claims.toJson)).mapError rejection
  | .fetchKeySet => do
    let s ← w.settings path
    match s.keySet with
    | none => .error { message := "no key set configured, set jwks.uri" }
    | some k =>
      match KeySet.fetch w.network k.uri with
      | .ok keys => .ok (String.join (keys.kids.map line))
      | .error e => .error { message := e.message }

structure Outcome where
  exitCode : Nat
  output : String := ""
  failure : Option Failure := none
  deriving DecidableEq, Repr

def versionText : String := "webconfig-security 0.1.0"

def helpText : String :=
  String.intercalate "\n"
    ["Seal secrets and issue or verify device tokens", "",
      "Usage: webconfig-security [OPTIONS] <COMMAND>", "", "Commands:",
      "  gen-key  Print a fresh base64 AES key",
      "  encrypt  Seal a plaintext with the configured codec key",
      "  decrypt  Open a sealed secret with the configured codec key",
      "  token    Issue, verify and inspect device tokens",
      "  jwks     Inspect the configured remote key set"]

def World.run (w : World) (args : List String) : Outcome :=
  match Invocation.read w.env args with
  | .error .misuse => { exitCode := 2 }
  | .error .help => { exitCode := 0, output := line helpText }
  | .error .version => { exitCode := 0, output := line versionText }
  | .ok invocation =>
    match w.perform invocation.settingsPath invocation.command with
    | .ok output => { exitCode := 0, output := output }
    | .error failure => { exitCode := 1, failure := some failure }

end DeviceTrust.CommandLine
