import DeviceTrust.Sealing.Framing
import DeviceTrust.Sealing.Key

/-!
# Sealing and opening secrets

With a key, a secret is sealed as the initialisation vector followed by its padded frame
under the cipher in chaining mode, and opening accepts exactly the sealed bytes of some
plaintext that unpadding does not shorten. Without a key both directions hand bytes
through, and text is merely base64.
-/

namespace DeviceTrust.Sealing

/-- Seals and opens secrets, under a key if there is one. -/
structure Codec where
  key : Option Key

namespace Codec

def keyed (k : Key) : Codec := ⟨some k⟩

def passthrough : Codec := ⟨none⟩

/-- A codec for a configured key text; an absent or blank text means no key. -/
def ofKeyText (text : Option String) : Except Error Codec :=
  match text.bind Text.nonBlank? with
  | some t => (Key.ofBase64 t).map keyed
  | none => .ok passthrough

def hasKey (c : Codec) : Bool := c.key.isSome

def keySize (c : Codec) : Option KeySize := c.key.map Key.size

def describe (c : Codec) : String :=
  if c.hasKey then "SecretCodec \x7b key: Some(\"[REDACTED]\") \x7d" else "SecretCodec \x7b key: None \x7d"

end Codec

def Key.run (k : Key) (d : Chaining.Direction) (iv text : Bytes) : Except Error Bytes :=
  (Chaining.run d k.size.byteLength k.bytes iv text).mapError .cipher

/-- The sealed form of a plaintext under a key and an initialisation vector. -/
def sealWith (k : Key) (iv plain : Bytes) : Except Error Bytes :=
  (k.run .encipher iv (pad (frame iv plain))).map (iv ++ ·)

/-- The plaintext in a deciphered text, if the digest fits it. -/
def unframe (iv padded : Bytes) : Except Error Bytes :=
  let residual := unpad padded
  if residual.length < digestSize then .error (.residualTooShort residual.length)
  else
    let plain := residual.drop digestSize
    if digest iv plain = residual.take digestSize then .ok plain
    else match strippedTail iv padded residual.length with
      | some b => .error (.ambiguousTail b)
      | none => .error .digestMismatch

/-- The first of at most `attempts` initialisation vectors under which the digest of the empty plaintext
survives unpadding. -/
def drawEmptyIv : Nat → RandomSource → Option Bytes × RandomSource
  | 0, source => (none, source)
  | attempts + 1, source =>
    let (iv, rest) := source.draw ivSize
    if isPadding ((digest iv []).getLastD 0) then drawEmptyIv attempts rest else (some iv, rest)

/-- How many initialisation vectors are tried for an empty plaintext. -/
def emptyAttempts : Nat := 16

namespace Codec

/-- Seals bytes. A plaintext that ends in a padding byte is refused, since it could not be opened again;
for an empty one the digest plays the part of its last byte. -/
def sealBytes (c : Codec) (plain : Bytes) (source : RandomSource) :
    Except Error Bytes × RandomSource :=
  match c.key with
  | none => (.ok plain, source)
  | some k =>
    match plain.getLast? with
    | some last =>
      if isPadding last then (.error (.ambiguousTail last), source)
      else
        let (iv, rest) := source.draw ivSize
        (sealWith k iv plain, rest)
    | none =>
      match drawEmptyIv emptyAttempts source with
      | (some iv, rest) => (sealWith k iv plain, rest)
      | (none, rest) => (.error (.ambiguousTail 0), rest)

def openBytes (c : Codec) (sealedBytes : Bytes) : Except Error Bytes :=
  match c.key with
  | none => .ok sealedBytes
  | some k =>
    let iv := sealedBytes.take ivSize
    let cipher := sealedBytes.drop ivSize
    if sealedBytes.length < ivSize + blockSize then .error (.tooShort sealedBytes.length)
    else if cipher.length % blockSize ≠ 0 then .error (.notBlockAligned cipher.length)
    else match k.run .decipher iv cipher with
      | .error e => .error e
      | .ok padded => unframe iv padded

def sealText (c : Codec) (text : String) (source : RandomSource) :
    Except Error String × RandomSource :=
  let (sealedBytes, rest) := c.sealBytes (Bytes.ofText text) source
  (sealedBytes.map (Base64.encode .standard), rest)

/-- Opens a text sealed by `sealText`, blank characters around it aside. -/
def openText (c : Codec) (sealedText : String) : Except Error String :=
  match Base64.decode .standard (Text.trim sealedText) with
  | .error e => .error (.encoding e)
  | .ok b =>
    match c.openBytes b with
    | .error e => .error e
    | .ok plain =>
      match Bytes.text? plain with
      | some text => .ok text
      | none => .error (.notText (Text.utf8Fault plain))

end Codec

end DeviceTrust.Sealing
