import DeviceTrust.Bytes

/-!
# Message padding for digests

The digests of this library absorb whole blocks. A message is closed by the byte 0x80,
zeros, and its length in bits, so that two messages never pad to the same blocks.
-/

namespace DeviceTrust.Digest

/-- The message, 0x80, zeros up to the length field, and the length in bits in `lengthBytes` bytes. -/
def padded (block lengthBytes : Nat) (message : Bytes) : Bytes :=
  let used := (message.length + 1 + lengthBytes) % block
  message ++ [0x80] ++ List.replicate ((block - used) % block) 0 ++
    Bytes.ofNat lengthBytes (8 * message.length)

def word32Bytes (w : UInt32) : Bytes := Bytes.ofNat 4 w.toNat

def word64Bytes (w : UInt64) : Bytes := Bytes.ofNat 8 w.toNat

def words32 (block : Bytes) : List UInt32 :=
  (Bytes.blocks 4 block).map fun b => UInt32.ofNat (Bytes.toNat b)

def words64 (block : Bytes) : List UInt64 :=
  (Bytes.blocks 8 block).map fun b => UInt64.ofNat (Bytes.toNat b)

end DeviceTrust.Digest
