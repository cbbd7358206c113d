import DeviceTrust.Base64
import DeviceTrust.Json.Decode
import DeviceTrust.KeySet.Key

/-!
# Entries of a key set document

An entry is an object that is read in full: every string must be a text, every number
finite, and nesting is bounded. Its common members have fixed types; its kind, `kty`, says
which other members hold the key. An entry of an unknown kind is an error of the whole
document, while one whose key is no base64 is merely unusable.
-/

namespace DeviceTrust

/-- The key members of an entry, still in base64. -/
inductive JwkParameters where
  | rsa (n e : String)
  | ellipticCurve (x y : String)
  | octets (k : String)
  | octetPair (x : String)
  deriving DecidableEq, Repr

structure Jwk where
  kid : Option String
  parameters : JwkParameters
  deriving DecidableEq, Repr

namespace Jwk

/-- Nesting that a document may have below its outermost value. -/
def depthLimit : Nat := 127

mutual

/-- Whether a value can be read in full with at most `depth` levels of nesting. -/
def isReadable (depth : Nat) : Json → Bool
  | .string s => (Json.unspell s).isSome
  | .number n => n.isFinite
  | .array items => 0 < depth && itemsReadable (depth - 1) items
  | .object members => 0 < depth && membersReadable (depth - 1) members
  | _ => true

def itemsReadable (depth : Nat) : List Json → Bool
  | [] => true
  | v :: vs => isReadable depth v && itemsReadable depth vs

def membersReadable (depth : Nat) : List (Bytes × Json) → Bool
  | [] => true
  | (k, v) :: ms => (Json.unspell k).isSome && isReadable depth v && membersReadable depth ms

end

def algorithms : List String :=
  ["HS256", "HS384", "HS512", "ES256", "ES384", "RS256", "RS384", "RS512", "PS256", "PS384", "PS512",
    "EdDSA", "RSA1_5", "RSA-OAEP", "RSA-OAEP-256"]

def curves : List String := ["P-256", "P-384", "P-521", "Ed25519"]

/-- Names of the members that every kind of entry has. -/
def commonNames : List String := ["use", "key_ops", "alg", "kid", "x5u", "x5c", "x5t", "x5t#S256"]

/-- The key members of an entry of each kind. -/
def parameters? (members : List (Bytes × Json)) : Option JwkParameters := do
  let named (names : List String) : Option Json.Fields :=
    (Json.membersNamed? names members).map fun vs => ⟨false, vs⟩
  let kind ← members.findSome? fun (k, v) =>
    if Json.unspell k = some "kty" then Json.choice? ["EC", "RSA", "oct", "OKP"] false v else none
  match kind with
  | "EC" =>
    let f ← named ["kty", "crv", "x", "y"]
    let _ ← f.required? "crv" (Json.choice? curves false)
    return .ellipticCurve (← f.required? "x" Json.text?) (← f.required? "y" Json.text?)
  | "RSA" =>
    let f ← named ["kty", "n", "e"]
    return .rsa (← f.required? "n" Json.text?) (← f.required? "e" Json.text?)
  | "oct" =>
    let f ← named ["kty", "k"]
    return .octets (← f.required? "k" Json.text?)
  | _ =>
    let f ← named ["kty", "crv", "x"]
    let _ ← f.required? "crv" (Json.choice? curves false)
    return .octetPair (← f.required? "x" Json.text?)

/-- Reads an entry that stands `depth` levels above the nesting limit. -/
def ofJson? (depth : Nat) : Json → Option Jwk
  | .object members => do
    if isReadable depth (.object members) then some () else none
    let common ← Json.membersNamed? commonNames members
    let f : Json.Fields := ⟨false, common⟩
    let _ ← f.optional? "use" Json.text?
    let _ ← f.optional? "key_ops" (Json.listOf? Json.text?)
    let _ ← f.optional? "alg" (Json.choice? algorithms true)
    let kid ← f.optional? "kid" Json.text?
    let _ ← f.optional? "x5u" Json.text?
    let _ ← f.optional? "x5c" (Json.listOf? Json.text?)
    let _ ← f.optional? "x5t" Json.text?
    let _ ← f.optional? "x5t#S256" Json.text?
    return ⟨kid, ← parameters? members⟩
  | _ => none

/-- The key of an entry, if its members are base64. -/
def key? (j : Jwk) : Option VerificationKey :=
  let decode (s : String) := (Base64.decode .url s).toOption
  match j.parameters with
  | .rsa n e => do return .rsaParts (← decode n) (← decode e)
  | .ellipticCurve x y => do return .ellipticCurve (← decode x) (← decode y)
  | .octets k => (decode k).map .secret
  | .octetPair x => (decode x).map .edwards

/-- The entries of a key set document: an object with the member `keys`, or an array that holds the list
alone. -/
def documentEntries? (v : Json) : Option (List Jwk) := do
  let f ← Json.fields? ["keys"] v
  f.required? "keys" (Json.listOf? (ofJson? (depthLimit - 2)))

end Jwk

end DeviceTrust
