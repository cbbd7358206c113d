import DeviceTrust.Digest.Padding

/-!
# SHA-256, SHA-384 and SHA-512

The digests under RSA signatures. The round constants are the leading fractional bits of
the cube roots of the first primes and the starting words those of their square roots, so
they are computed from that rule and not listed.
-/

namespace DeviceTrust.Digest.Sha2

/-- The largest `r` below `2 ^ bits` with `r ^ power ≤ n`, found bit by bit. -/
def root (power n : Nat) : Nat → Nat → Nat
  | 0, r => r
  | bits + 1, r =>
    let r' := r + Nat.pow 2 bits
    root power n bits (if Nat.pow r' power ≤ n then r' else r)

def fractional (power bits p : Nat) : Nat :=
  root power (p * Nat.pow 2 (power * bits)) (bits + 10) 0 % Nat.pow 2 bits

/-- Whether no number from 2 up to its root divides `n`. -/
def isPrime (n : Nat) : Bool := 2 ≤ n && (List.range n).all fun d => d < 2 || n % d != 0

def primes : List Nat := ((List.range 410).filter isPrime).take 80

def constants64 : List UInt64 := primes.map fun p => UInt64.ofNat (fractional 3 64 p)

def constants32 : List UInt32 := (primes.take 64).map fun p => UInt32.ofNat (fractional 3 32 p)

structure State (w : Type) where
  a : w
  b : w
  c : w
  d : w
  e : w
  f : w
  g : w
  h : w

def State.ofList {w : Type} (zero : w) (xs : List w) : State w :=
  let at' (i : Nat) := xs.getD i zero
  ⟨at' 0, at' 1, at' 2, at' 3, at' 4, at' 5, at' 6, at' 7⟩

def State.toList {w : Type} (s : State w) : List w := [s.a, s.b, s.c, s.d, s.e, s.f, s.g, s.h]

def State.add {w : Type} [Add w] (s t : State w) : State w :=
  ⟨s.a + t.a, s.b + t.b, s.c + t.c, s.d + t.d, s.e + t.e, s.f + t.f, s.g + t.g, s.h + t.h⟩

def start256 : State UInt32 :=
  State.ofList 0 ((primes.take 8).map fun p => UInt32.ofNat (fractional 2 32 p))

def start512 : State UInt64 :=
  State.ofList 0 ((primes.take 8).map fun p => UInt64.ofNat (fractional 2 64 p))

/-- Starting words of SHA-384, from the ninth prime on. -/
def start384 : State UInt64 :=
  State.ofList 0 (((primes.drop 8).take 8).map fun p => UInt64.ofNat (fractional 2 64 p))

def rotr32 (x n : UInt32) : UInt32 := (x >>> n) ||| (x <<< (32 - n))

def rotr64 (x n : UInt64) : UInt64 := (x >>> n) ||| (x <<< (64 - n))

/-- Extends a 32-bit schedule by one word, newest word first. -/
def extend32 (recent : List UInt32) : List UInt32 :=
  let x := recent.getD 14 0
  let y := recent.getD 1 0
  let s0 := rotr32 x 7 ^^^ rotr32 x 18 ^^^ (x >>> 3)
  let s1 := rotr32 y 17 ^^^ rotr32 y 19 ^^^ (y >>> 10)
  (recent.getD 15 0 + s0 + recent.getD 6 0 + s1) :: recent

/-- Extends a 64-bit schedule by one word, newest word first. -/
def extend64 (recent : List UInt64) : List UInt64 :=
  let x := recent.getD 14 0
  let y := recent.getD 1 0
  let s0 := rotr64 x 1 ^^^ rotr64 x 8 ^^^ (x >>> 7)
  let s1 := rotr64 y 19 ^^^ rotr64 y 61 ^^^ (y >>> 6)
  (recent.getD 15 0 + s0 + recent.getD 6 0 + s1) :: recent

def round32 (s : State UInt32) (k w : UInt32) : State UInt32 :=
  let s1 := rotr32 s.e 6 ^^^ rotr32 s.e 11 ^^^ rotr32 s.e 25
  let ch := (s.e &&& s.f) ^^^ (~~~s.e &&& s.g)
  let t1 := s.h + s1 + ch + k + w
  let s0 := rotr32 s.a 2 ^^^ rotr32 s.a 13 ^^^ rotr32 s.a 22
  let maj := (s.a &&& s.b) ^^^ (s.a &&& s.c) ^^^ (s.b &&& s.c)
  ⟨t1 + (s0 + maj), s.a, s.b, s.c, s.d + t1, s.e, s.f, s.g⟩

def round64 (s : State UInt64) (k w : UInt64) : State UInt64 :=
  let s1 := rotr64 s.e 14 ^^^ rotr64 s.e 18 ^^^ rotr64 s.e 41
  let ch := (s.e &&& s.f) ^^^ (~~~s.e &&& s.g)
  let t1 := s.h + s1 + ch + k + w
  let s0 := rotr64 s.a 28 ^^^ rotr64 s.a 34 ^^^ rotr64 s.a 39
  let maj := (s.a &&& s.b) ^^^ (s.a &&& s.c) ^^^ (s.b &&& s.c)
  ⟨t1 + (s0 + maj), s.a, s.b, s.c, s.d + t1, s.e, s.f, s.g⟩

def compress32 (s : State UInt32) (block : Bytes) : State UInt32 :=
  let schedule := (Nat.repeat extend32 48 (words32 block).reverse).reverse
  s.add ((constants32.zip schedule).foldl (fun t (k, w) => round32 t k w) s)

def compress64 (s : State UInt64) (block : Bytes) : State UInt64 :=
  let schedule := (Nat.repeat extend64 64 (words64 block).reverse).reverse
  s.add ((constants64.zip schedule).foldl (fun t (k, w) => round64 t k w) s)

def absorb64 (start : State UInt64) (message : Bytes) : Bytes :=
  ((Bytes.blocks 128 (padded 128 16 message)).foldl compress64 start).toList.flatMap word64Bytes

def sha256 (message : Bytes) : Bytes :=
  ((Bytes.blocks 64 (padded 64 8 message)).foldl compress32 start256).toList.flatMap word32Bytes

def sha512 (message : Bytes) : Bytes := absorb64 start512 message

/-- The 48-byte digest: the first six words after starting words of its own. -/
def sha384 (message : Bytes) : Bytes := (absorb64 start384 message).take 48

theorem length_sha256 (message : Bytes) : (sha256 message).length = 32 := by
  simp [sha256, State.toList, word32Bytes, Bytes.length_ofNat]

theorem length_sha512 (message : Bytes) : (sha512 message).length = 64 := by
  simp [sha512, absorb64, State.toList, word64Bytes, Bytes.length_ofNat]

theorem length_sha384 (message : Bytes) : (sha384 message).length = 48 := by
  simp [sha384, absorb64, State.toList, word64Bytes, Bytes.length_ofNat]

end DeviceTrust.Digest.Sha2
