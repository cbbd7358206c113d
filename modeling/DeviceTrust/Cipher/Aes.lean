import DeviceTrust.Bytes

/-!
# The AES block cipher

Four columns of four bytes, enciphered in ten, twelve or fourteen rounds according to
the length of the key. Deciphering takes the same list of round keys and undoes the
rounds from the last to the first, so the two functions recurse over one list and each
step of the one meets its inverse in the other.
-/

namespace DeviceTrust.Aes

/-- Four bytes: a column of a block, or a word of the key schedule. -/
structure Column where
  r0 : UInt8
  r1 : UInt8
  r2 : UInt8
  r3 : UInt8
  deriving DecidableEq, Repr

/-- Sixteen bytes, column by column. -/
structure Block where
  c0 : Column
  c1 : Column
  c2 : Column
  c3 : Column
  deriving DecidableEq, Repr

def substitution : Array UInt8 := #[
    0x63, 0x7c, 0x77, 0x7b, 0xf2, 0x6b, 0x6f, 0xc5, 0x30, 0x01, 0x67, 0x2b, 0xfe, 0xd7, 0xab, 0x76,
    0xca, 0x82, 0xc9, 0x7d, 0xfa, 0x59, 0x47, 0xf0, 0xad, 0xd4, 0xa2, 0xaf, 0x9c, 0xa4, 0x72, 0xc0,
    0xb7, 0xfd, 0x93, 0x26, 0x36, 0x3f, 0xf7, 0xcc, 0x34, 0xa5, 0xe5, 0xf1, 0x71, 0xd8, 0x31, 0x15,
    0x04, 0xc7, 0x23, 0xc3, 0x18, 0x96, 0x05, 0x9a, 0x07, 0x12, 0x80, 0xe2, 0xeb, 0x27, 0xb2, 0x75,
    0x09, 0x83, 0x2c, 0x1a, 0x1b, 0x6e, 0x5a, 0xa0, 0x52, 0x3b, 0xd6, 0xb3, 0x29, 0xe3, 0x2f, 0x84,
    0x53, 0xd1, 0x00, 0xed, 0x20, 0xfc, 0xb1, 0x5b, 0x6a, 0xcb, 0xbe, 0x39, 0x4a, 0x4c, 0x58, 0xcf,
    0xd0, 0xef, 0xaa, 0xfb, 0x43, 0x4d, 0x33, 0x85, 0x45, 0xf9, 0x02, 0x7f, 0x50, 0x3c, 0x9f, 0xa8,
    0x51, 0xa3, 0x40, 0x8f, 0x92, 0x9d, 0x38, 0xf5, 0xbc, 0xb6, 0xda, 0x21, 0x10, 0xff, 0xf3, 0xd2,
    0xcd, 0x0c, 0x13, 0xec, 0x5f, 0x97, 0x44, 0x17, 0xc4, 0xa7, 0x7e, 0x3d, 0x64, 0x5d, 0x19, 0x73,
    0x60, 0x81, 0x4f, 0xdc, 0x22, 0x2a, 0x90, 0x88, 0x46, 0xee, 0xb8, 0x14, 0xde, 0x5e, 0x0b, 0xdb,
    0xe0, 0x32, 0x3a, 0x0a, 0x49, 0x06, 0x24, 0x5c, 0xc2, 0xd3, 0xac, 0x62, 0x91, 0x95, 0xe4, 0x79,
    0xe7, 0xc8, 0x37, 0x6d, 0x8d, 0xd5, 0x4e, 0xa9, 0x6c, 0x56, 0xf4, 0xea, 0x65, 0x7a, 0xae, 0x08,
    0xba, 0x78, 0x25, 0x2e, 0x1c, 0xa6, 0xb4, 0xc6, 0xe8, 0xdd, 0x74, 0x1f, 0x4b, 0xbd, 0x8b, 0x8a,
    0x70, 0x3e, 0xb5, 0x66, 0x48, 0x03, 0xf6, 0x0e, 0x61, 0x35, 0x57, 0xb9, 0x86, 0xc1, 0x1d, 0x9e,
    0xe1, 0xf8, 0x98, 0x11, 0x69, 0xd9, 0x8e, 0x94, 0x9b, 0x1e, 0x87, 0xe9, 0xce, 0x55, 0x28, 0xdf,
    0x8c, 0xa1, 0x89, 0x0d, 0xbf, 0xe6, 0x42, 0x68, 0x41, 0x99, 0x2d, 0x0f, 0xb0, 0x54, 0xbb, 0x16]

/-- Where each byte stands in the substitution box. -/
def positions : Array UInt8 :=
  ((List.range 256).map fun b => UInt8.ofNat (substitution.toList.idxOf (UInt8.ofNat b))).toArray

def sub (b : UInt8) : UInt8 := substitution.getD b.toNat 0

def unsub (b : UInt8) : UInt8 := positions.getD b.toNat 0

def double (b : UInt8) : UInt8 := (b <<< 1) ^^^ (if b < 128 then 0 else 0x1b)

/-- Multiplication by a field element below sixteen. -/
def times (k : Nat) (b : UInt8) : UInt8 :=
  let b2 := double b
  let b4 := double b2
  let b8 := double b4
  (if k.testBit 0 then b else 0) ^^^ (if k.testBit 1 then b2 else 0) ^^^
    (if k.testBit 2 then b4 else 0) ^^^ (if k.testBit 3 then b8 else 0)

namespace Column

def map (f : UInt8 → UInt8) (c : Column) : Column := ⟨f c.r0, f c.r1, f c.r2, f c.r3⟩

def xor (c d : Column) : Column := ⟨c.r0 ^^^ d.r0, c.r1 ^^^ d.r1, c.r2 ^^^ d.r2, c.r3 ^^^ d.r3⟩

/-- The four bytes, each moved up by one place. -/
def rotate (c : Column) : Column := ⟨c.r1, c.r2, c.r3, c.r0⟩

/-- Product with the circulant matrix whose first row is given. -/
def circulant (p q r s : Nat) (c : Column) : Column :=
  ⟨times p c.r0 ^^^ times q c.r1 ^^^ times r c.r2 ^^^ times s c.r3,
   times s c.r0 ^^^ times p c.r1 ^^^ times q c.r2 ^^^ times r c.r3,
   times r c.r0 ^^^ times s c.r1 ^^^ times p c.r2 ^^^ times q c.r3,
   times q c.r0 ^^^ times r c.r1 ^^^ times s c.r2 ^^^ times p c.r3⟩

def mix : Column → Column := circulant 2 3 1 1

def unmix : Column → Column := circulant 14 11 13 9

/-- The column of the first four bytes; missing bytes are zero. -/
def ofBytes (b : Bytes) : Column := ⟨b.getD 0 0, b.getD 1 0, b.getD 2 0, b.getD 3 0⟩

def toBytes (c : Column) : Bytes := [c.r0, c.r1, c.r2, c.r3]

end Column

namespace Block

def map (f : Column → Column) (b : Block) : Block := ⟨f b.c0, f b.c1, f b.c2, f b.c3⟩

def xor (a b : Block) : Block := ⟨a.c0.xor b.c0, a.c1.xor b.c1, a.c2.xor b.c2, a.c3.xor b.c3⟩

def shift (b : Block) : Block :=
  ⟨⟨b.c0.r0, b.c1.r1, b.c2.r2, b.c3.r3⟩, ⟨b.c1.r0, b.c2.r1, b.c3.r2, b.c0.r3⟩,
   ⟨b.c2.r0, b.c3.r1, b.c0.r2, b.c1.r3⟩, ⟨b.c3.r0, b.c0.r1, b.c1.r2, b.c2.r3⟩⟩

def unshift (b : Block) : Block :=
  ⟨⟨b.c0.r0, b.c3.r1, b.c2.r2, b.c1.r3⟩, ⟨b.c1.r0, b.c0.r1, b.c3.r2, b.c2.r3⟩,
   ⟨b.c2.r0, b.c1.r1, b.c0.r2, b.c3.r3⟩, ⟨b.c3.r0, b.c2.r1, b.c1.r2, b.c0.r3⟩⟩

/-- The block of the first sixteen bytes; missing bytes are zero. -/
def ofBytes (b : Bytes) : Block :=
  ⟨.ofBytes b, .ofBytes (b.drop 4), .ofBytes (b.drop 8), .ofBytes (b.drop 12)⟩

def toBytes (b : Block) : Bytes :=
  b.c0.toBytes ++ b.c1.toBytes ++ b.c2.toBytes ++ b.c3.toBytes

/-- Substitutes every byte and moves the rows. -/
def scramble (b : Block) : Block := shift (b.map (Column.map sub))

def unscramble (b : Block) : Block := (unshift b).map (Column.map unsub)

end Block

def keyWords (key : Bytes) : List Column := (Bytes.blocks 4 key).map Column.ofBytes

/-- Adds one word to a key schedule, newest word first. `size` is the number of words in the key and
`constant` the round constant in force. -/
def nextWord (size index : Nat) (constant : UInt8) (recent : List Column) : Column :=
  let last := recent.getD 0 ⟨0, 0, 0, 0⟩
  let turned :=
    if index % size = 0 then (last.rotate.map sub).xor ⟨constant, 0, 0, 0⟩
    else if 6 < size ∧ index % size = 4 then last.map sub
    else last
  turned.xor (recent.getD (size - 1) ⟨0, 0, 0, 0⟩)

/-- Adds `count` words to a key schedule, newest word first. -/
def expand (size : Nat) : Nat → Nat → UInt8 → List Column → List Column
  | 0, _, _, recent => recent
  | count + 1, index, constant, recent =>
    let w := nextWord size index constant recent
    let constant' := if index % size = 0 then double constant else constant
    expand size count (index + 1) constant' (w :: recent)

def group : List Column → List Block
  | a :: b :: c :: d :: rest => ⟨a, b, c, d⟩ :: group rest
  | _ => []

/-- The round keys: seven more than there are words in the key. -/
def roundKeys (key : Bytes) : List Block :=
  let words := keyWords key
  let size := words.length
  group (expand size (4 * (size + 7) - size) size 1 words.reverse).reverse

/-- The rounds after the first key was added. The last one does not mix. -/
def runRounds : List Block → Block → Block
  | [], b => b
  | [k], b => b.scramble.xor k
  | k :: ks, b => runRounds ks ((b.scramble.map Column.mix).xor k)

def undoRounds : List Block → Block → Block
  | [], b => b
  | [k], b => (b.xor k).unscramble
  | k :: ks, b => (((undoRounds ks b).xor k).map Column.unmix).unscramble

def encipher : List Block → Block → Block
  | [], b => b
  | k :: ks, b => runRounds ks (b.xor k)

def decipher : List Block → Block → Block
  | [], b => b
  | k :: ks, b => (undoRounds ks b).xor k

end DeviceTrust.Aes
