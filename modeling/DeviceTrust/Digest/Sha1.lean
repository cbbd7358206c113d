import DeviceTrust.Digest.Padding

/-!
# SHA-1

The 20-byte digest that binds a sealed secret to its initialisation vector. It is a
checksum under the cipher here; nothing in this library rests on collision resistance.
-/

namespace DeviceTrust.Digest.Sha1

structure State where
  a : UInt32
  b : UInt32
  c : UInt32
  d : UInt32
  e : UInt32

def State.start : State := ⟨0x67452301, 0xEFCDAB89, 0x98BADCFE, 0x10325476, 0xC3D2E1F0⟩

def State.add (s t : State) : State := ⟨s.a + t.a, s.b + t.b, s.c + t.c, s.d + t.d, s.e + t.e⟩

def State.bytes (s : State) : Bytes :=
  word32Bytes s.a ++ word32Bytes s.b ++ word32Bytes s.c ++ word32Bytes s.d ++ word32Bytes s.e

def rotl (x : UInt32) (n : UInt32) : UInt32 := (x <<< n) ||| (x >>> (32 - n))

/-- Extends the schedule by one word, newest word first. -/
def extend (recent : List UInt32) : List UInt32 :=
  rotl (recent.getD 2 0 ^^^ recent.getD 7 0 ^^^ recent.getD 13 0 ^^^ recent.getD 15 0) 1 :: recent

def schedule (block : Bytes) : List UInt32 :=
  (Nat.repeat extend 64 (words32 block).reverse).reverse

/-- Round function and constant of round `i`. -/
def mix (i : Nat) (b c d : UInt32) : UInt32 :=
  if i < 20 then ((b &&& c) ||| (~~~b &&& d)) + 0x5A827999
  else if i < 40 then (b ^^^ c ^^^ d) + 0x6ED9EBA1
  else if i < 60 then ((b &&& c) ||| (b &&& d) ||| (c &&& d)) + 0x8F1BBCDC
  else (b ^^^ c ^^^ d) + 0xCA62C1D6

def round (s : State) (i : Nat) (w : UInt32) : State :=
  ⟨rotl s.a 5 + mix i s.b s.c s.d + s.e + w, s.a, rotl s.b 30, s.c, s.d⟩

def compress (s : State) (block : Bytes) : State :=
  s.add ((schedule block).zipIdx.foldl (fun t (w, i) => round t i w) s)

def hash (message : Bytes) : Bytes :=
  ((Bytes.blocks 64 (padded 64 8 message)).foldl compress State.start).bytes

theorem length_hash (message : Bytes) : (hash message).length = 20 := by
  simp [hash, State.bytes, word32Bytes, Bytes.length_ofNat]

end DeviceTrust.Digest.Sha1
