import DeviceTrust.Digest.Sha1

/-!
# The layout under the cipher

A secret is framed as `digest ++ plaintext`, where the digest covers the initialisation
vector and the plaintext, and padded with 0x80 and zeros to whole blocks. An aligned frame
is not padded at all. Unpadding drops every trailing 0x00 and 0x80, so it can take more
than padding away: `strippedTail` tells whether it did.
-/

namespace DeviceTrust.Sealing

def blockSize : Nat := 16

def ivSize : Nat := 16

def digestSize : Nat := 20

/-- Digest of a plaintext under an initialisation vector. -/
def digest (iv plain : Bytes) : Bytes := Digest.Sha1.hash (iv ++ plain)

def isPadding (b : UInt8) : Bool := b == 0x80 || b == 0x00

def frame (iv plain : Bytes) : Bytes := digest iv plain ++ plain

/-- How many bytes are missing to whole blocks. -/
def padLength (n : Nat) : Nat := (blockSize - n % blockSize) % blockSize

/-- The bytes that fill a gap: 0x80 and then zeros, or nothing for no gap. -/
def filler : Nat → Bytes
  | 0 => []
  | n + 1 => 0x80 :: List.replicate n 0x00

def pad (b : Bytes) : Bytes := b ++ filler (padLength b.length)

def unpad (b : Bytes) : Bytes := (b.reverse.dropWhile isPadding).reverse

/-- The last byte of the shortest frame that starts `padded`, is longer than `kept` bytes and carries the
right digest: the byte of a plaintext that unpadding took for padding. -/
def strippedTail (iv padded : Bytes) (kept : Nat) : Option UInt8 :=
  if kept < digestSize ∨ padded.length < kept then none
  else
    let ends := (List.range (padded.length - kept)).map (· + (kept + 1))
    let fits (e : Nat) := digest iv ((padded.take e).drop digestSize) == padded.take digestSize
    (ends.find? fits).bind fun e => padded[e - 1]?

theorem length_digest (iv plain : Bytes) : (digest iv plain).length = digestSize :=
  Digest.Sha1.length_hash _

theorem digest_ne_nil (iv plain : Bytes) : digest iv plain ≠ [] := by
  intro h
  have hlen := length_digest iv plain
  rw [h] at hlen
  cases hlen

end DeviceTrust.Sealing
