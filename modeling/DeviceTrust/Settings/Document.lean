import DeviceTrust.Named
import DeviceTrust.Settings.Layer
import DeviceTrust.Toml.Decode

/-!
# Settings documents

A layer written as a document has a table for each section. A value of the wrong type makes
the whole document unreadable; names that mean nothing are passed over.
-/

namespace DeviceTrust.Settings

open Toml (Members Value)

def texts? (v : Value) : Option (List String) := v.listOf? Value.text?

def verifier? (v : Value) : Option Token.VerifierKind :=
  (v.choice? ["current", "legacy"]).map fun name => if name = "legacy" then .legacy else .current

def logFormat? (v : Value) : Option LogFormat :=
  (v.choice? ["pretty", "json"]).map fun name => if name = "json" then .json else .pretty

def SealingLayer.ofValue? (v : Value) : Option SealingLayer := do
  let ms ← v.fields? ["key"]
  return { key := (← ms.optional? "key" Value.text?).map Secret.mk }

def PolicyLayer.ofValue? (v : Value) : Option PolicyLayer := do
  let ms ← v.fields? ["allowed_kids", "capabilities"]
  return { allowedKids := ← ms.optional? "allowed_kids" texts?
           capabilities := ← ms.optional? "capabilities" texts? }

def IssuanceLayer.ofValue? (v : Value) : Option IssuanceLayer := do
  let ms ← v.fields? ["issuer", "audience", "subject", "partner_id", "trust", "capabilities"]
  return { issuer := ← ms.optional? "issuer" Value.text?
           audience := ← ms.optional? "audience" Value.text?
           subject := ← ms.optional? "subject" Value.text?
           partnerId := ← ms.optional? "partner_id" Value.text?
           trust := ← ms.optional? "trust" Value.text?
           capabilities := ← ms.optional? "capabilities" texts? }

def TokenLayer.ofValue? (v : Value) : Option TokenLayer := do
  let ms ← v.fields? ["signing_kid", "signing_key_path", "verifier", "audience", "keyring", "api",
    "device", "issuance", "default_ttl_secs"]
  return { signingKid := ← ms.optional? "signing_kid" Value.text?
           signingKeyPath := ← ms.optional? "signing_key_path" Value.text?
           verifier := ← ms.optional? "verifier" verifier?
           audience := ← ms.optional? "audience" Value.text?
           keyring := (← ms.optional? "keyring" (Value.tableOf? Value.text?)).map Named.ofList
           api := ← ms.optional? "api" PolicyLayer.ofValue?
           device := ← ms.optional? "device" PolicyLayer.ofValue?
           issuance := ← ms.optional? "issuance" IssuanceLayer.ofValue?
           defaultLifetime := ← ms.optional? "default_ttl_secs" Value.count? }

def KeySetLayer.ofValue? (v : Value) : Option KeySetLayer := do
  let ms ← v.fields? ["uri", "refresh_interval_secs", "min_refresh_interval_secs", "timeout_secs"]
  return { uri := ← ms.optional? "uri" Value.text?
           refreshInterval := ← ms.optional? "refresh_interval_secs" Value.count?
           minRefreshInterval := ← ms.optional? "min_refresh_interval_secs" Value.count?
           timeout := ← ms.optional? "timeout_secs" Value.count? }

def LoggingLayer.ofValue? (v : Value) : Option LoggingLayer := do
  let ms ← v.fields? ["level", "format"]
  return { level := ← ms.optional? "level" Value.text?
           format := ← ms.optional? "format" logFormat? }

def Layer.ofValue? (v : Value) : Option Layer := do
  let ms ← v.fields? ["codec", "token", "jwks", "logging"]
  return { sealing := ← ms.optional? "codec" SealingLayer.ofValue?
           token := ← ms.optional? "token" TokenLayer.ofValue?
           keySet := ← ms.optional? "jwks" KeySetLayer.ofValue?
           logging := ← ms.optional? "logging" LoggingLayer.ofValue? }

def readDocument {α : Type} (ofValue? : Value → Option α) (document : String) : Option α :=
  (Toml.read document).bind fun ms => ofValue? (.table .header ms)

def Layer.ofDocument? (document : String) : Option Layer := readDocument Layer.ofValue? document

end DeviceTrust.Settings
