import DeviceTrust.Bytes

/-!
# Randomness as data

The random source is the list of bytes it is going to give out. Whoever draws from it
takes a prefix and hands on the rest, so every use of randomness is visible in a type.
A source that has run dry gives zeros.
-/

namespace DeviceTrust

abbrev RandomSource := Bytes

def RandomSource.draw (n : Nat) (source : RandomSource) : Bytes × RandomSource :=
  let taken := source.take n
  (taken ++ List.replicate (n - taken.length) 0, source.drop n)

theorem RandomSource.length_draw (n : Nat) (source : RandomSource) :
    (source.draw n).1.length = n := by
  simp only [draw, List.length_append, List.length_replicate, List.length_take]
  omega

end DeviceTrust
