import DeviceTrust.KeySet.Basic
import DeviceTrust.Token.Error

/-!
# Keys from files

A signing key is known by the identifier it is published under; a keyring holds the
verification keys of one or more files. A keyring is loaded as a whole or not at all, and
one without keys is refused.
-/

namespace DeviceTrust.Token

def loadKey (files : Storage) (path : String) : Except KeyFileError Bytes :=
  match files.read path with
  | .error .missing => .error (.missing path)
  | .error cause => .error (.unreadable path cause)
  | .ok contents =>
    match Rsa.keyFromPem contents with
    | .ok der => .ok der
    | .error cause => .error (.unusable path cause)

/-- A private key and the identifier under which its public key is published. -/
structure SigningKey where
  kid : String
  /-- The key document, which is only examined when something is signed. -/
  der : Bytes
  deriving DecidableEq, Repr

namespace SigningKey

def load (files : Storage) (kid path : String) : Except KeyFileError SigningKey :=
  (loadKey files path).map (SigningKey.mk kid)

def describe (k : SigningKey) : String :=
  Text.describeRecord "SigningKey"
    [("kid", Text.quoted k.kid), ("key", Text.quoted "[REDACTED]")]

end SigningKey

def loadVerificationKey (files : Storage) (path : String) : Except KeyFileError VerificationKey :=
  (loadKey files path).map .rsaDocument

structure Keyring where
  keys : KeySet
  deriving DecidableEq, Repr

namespace Keyring

def empty : Keyring := ⟨.empty⟩

/-- Adds the keys of files in order, up to the first that cannot be loaded. -/
def addFiles (files : Storage) : KeySet → List (String × String) → Except Error KeySet
  | s, [] => .ok s
  | s, (kid, path) :: rest =>
    match loadVerificationKey files path with
    | .error e => .error (.keyFile e)
    | .ok key => addFiles files (s.insert kid key) rest

def load (files : Storage) (entries : List (String × String)) : Except Error Keyring :=
  match addFiles files .empty entries with
  | .error e => .error e
  | .ok keys => if keys.isEmpty then .error (.configuration .emptyKeyring) else .ok ⟨keys⟩

def describe (k : Keyring) : String :=
  Text.describeRecord "Keyring" [("keys", k.keys.describe)]

end Keyring

end DeviceTrust.Token
