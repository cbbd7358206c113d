/-!
# Whole numbers in double precision

Readers of documents refuse numbers that are too great for double precision, and for that need
no more of its arithmetic than rounding whole numbers and the bound of the finite ones.
-/

namespace DeviceTrust.Double

/-- The least number that rounds to infinity. -/
def limit : Nat := Nat.pow 2 1024 - Nat.pow 2 970

/-- The 53 leading bits of a number, rounded to nearest with ties to even. -/
def round (n : Nat) : Nat :=
  if n < Nat.pow 2 53 then n
  else
    let k := n.log2 - 52
    let q := n >>> k
    let r := n % Nat.pow 2 k
    let half := Nat.pow 2 (k - 1)
    (if half < r ∨ (r = half ∧ q % 2 = 1) then q + 1 else q) <<< k

end DeviceTrust.Double
