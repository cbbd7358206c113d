import DeviceTrust.Der.Element
import DeviceTrust.Pem

/-!
# RSA keys in PEM files

A file that is labelled as an RSA key holds the key itself. One that is labelled as a
general key or as a certificate holds it inside: the file must name the RSA algorithm
before any other kind of key, and the first string of bits or bytes is taken for the key.
Whether that string is a key is only seen when it is used.
-/

namespace DeviceTrust.Rsa

inductive KeyFileError where
  /-- The file is no PEM file of a known kind, or it names no RSA key. -/
  | format
  /-- The file names an RSA key and holds none. -/
  | empty
  deriving DecidableEq, Repr

def KeyFileError.message : KeyFileError → String
  | format => "InvalidKeyFormat"
  | empty => "InvalidEcdsaKey"

def rsaIdentifier : List Nat := [1, 2, 840, 113549, 1, 1, 1]

/-- Identifiers of the kinds of key that a file may name. -/
def keyIdentifiers : List (List Nat) := [[1, 2, 840, 10045, 2, 1], rsaIdentifier, [1, 3, 101, 112]]

def keyFromPem (file : Bytes) : Except KeyFileError Bytes :=
  match Pem.read file with
  | none => .error .format
  | some block =>
    match Der.read block.contents with
    | none => .error .format
    | some elements =>
      if block.label = "RSA PRIVATE KEY" ∨ block.label = "RSA PUBLIC KEY" then .ok block.contents
      else if block.label = "PRIVATE KEY" ∨ block.label = "PUBLIC KEY" ∨ block.label = "CERTIFICATE" then
        if (Der.identifiersIn elements).find? keyIdentifiers.contains = some rsaIdentifier then
          match Der.stringsIn elements with
          | key :: _ => .ok key
          | [] => .error .empty
        else .error .format
      else .error .format

end DeviceTrust.Rsa
