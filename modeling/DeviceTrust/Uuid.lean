import DeviceTrust.Random

/-!
# Random identifiers

A random identifier is sixteen bytes, of which four bits say that it is random and two bits
which layout it has. It is written in lower-case hexadecimal, in groups of 8, 4, 4, 4 and 12.
-/

namespace DeviceTrust.Uuid

def write (b : Bytes) : String :=
  let part (start length : Nat) : String := Bytes.toHex ((b.drop start).take length)
  String.intercalate "-" [part 0 4, part 4 2, part 6 2, part 8 2, part 10 6]

/-- Marks sixteen random bytes as a random identifier. -/
def mark (b : Bytes) : Bytes :=
  (b.set 6 ((b.getD 6 0 &&& 0x4f) ||| 0x40)).set 8 ((b.getD 8 0 &&& 0xbf) ||| 0x80)

/-- Draws an identifier. The first byte drawn is its last one. -/
def draw (source : RandomSource) : String × RandomSource :=
  let (b, rest) := source.draw 16
  (write (mark b.reverse), rest)

end DeviceTrust.Uuid
