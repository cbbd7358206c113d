import DeviceTrust.Json.Decode
import DeviceTrust.Proofs.Json.Number
import Mathlib.Algebra.Group.Int.Defs

/-!
# Integers are read back

An integer is written in decimal digits without leading zeros, and that is all the grammar asks
of a whole part. Within 64 signed bits the number means the integer it was written from.
-/

namespace DeviceTrust.Json

variable {d n : Nat} {ds : List Nat}

theorem digitsOf_eq (n : Nat) : digitsOf n = if n < 10 then [n] else digitsOf (n / 10) ++ [n % 10] := by
  have hchar : ∀ d < 10, (Nat.digitChar d).toNat - '0'.toNat = d := by decide
  have hmod : n % 10 < 10 := Nat.mod_lt n (by decide)
  rw [digitsOf, Nat.toDigits_eq_if (by decide)]
  split
  · rename_i hn
    rw [List.map_singleton, hchar n hn]
  · rw [List.map_append, List.map_singleton, hchar _ hmod]
    rfl

theorem ofDigits_digitsOf (n : Nat) : ofDigits (digitsOf n) = n := by
  have hvalue := @Nat.ofDigitChars_ten_toDigits n
  rw [Nat.ofDigitChars_eq_foldl] at hvalue
  rw [ofDigits, digitsOf, List.foldl_map]
  simpa only [Nat.mul_comm] using hvalue

theorem digitsOf_ne_nil (n : Nat) : digitsOf n ≠ [] := by
  rw [digitsOf_eq]
  split <;> simp

theorem lt_ten_of_mem_digitsOf (h : d ∈ digitsOf n) : d < 10 := by
  induction n using Nat.strongRecOn with
  | ind n ih =>
    rw [digitsOf_eq] at h
    split at h
    · rename_i hn
      rw [List.mem_singleton.mp h]
      exact hn
    · rename_i hn
      rcases List.mem_append.mp h with h | h
      · exact ih (n / 10) (by omega) h
      · rw [List.mem_singleton.mp h]
        exact Nat.mod_lt n (by decide)

/-- Only zero is written with a zero in front, and then there is nothing else. -/
theorem eq_nil_of_digitsOf (h : digitsOf n = 0 :: ds) : ds = [] := by
  induction n using Nat.strongRecOn generalizing ds with
  | ind n ih =>
    rw [digitsOf_eq] at h
    split at h
    · exact (List.cons.inj h).2.symm
    · rename_i hn
      cases hlead : digitsOf (n / 10) with
      | nil => exact absurd hlead (digitsOf_ne_nil _)
      | cons d lead =>
        rw [hlead, List.cons_append] at h
        obtain ⟨rfl, -⟩ := List.cons.inj h
        have hzero := ofDigits_digitsOf (n / 10)
        rw [hlead, ih (n / 10) (by omega) hlead] at hzero
        have hzero : 0 = n / 10 := hzero
        omega

theorem wholeText_digitsOf (n : Nat) : WholeText (printDigits (digitsOf n)) (digitsOf n) where
  ne_nil := digitsOf_ne_nil n
  lt_ten _ := lt_ten_of_mem_digitsOf
  text_eq := rfl
  zero_alone _ := eq_nil_of_digitsOf

theorem numberText_ofInt (n : Int) : NumberText (Number.ofInt n).print (Number.ofInt n) := by
  have htext : NumberText _ (Number.ofInt n) := .intro (wholeText_digitsOf n.natAbs) .absent .absent
  have hprint : (Number.ofInt n).print = (if (Number.ofInt n).negative then [0x2d] else []) ++
      (printDigits (digitsOf n.natAbs) ++ ([] ++ [])) := by
    simp only [Number.print, Number.ofInt, List.append_nil]
  rw [hprint]
  exact htext

theorem toInt?_ofInt {n : Int} (hlow : -(2 : Int) ^ 63 ≤ n) (hhigh : n < (2 : Int) ^ 63) :
    (Number.ofInt n).toInt? = some n := by
  have hsize : n.natAbs ≤ Nat.pow 2 63 ∧ n.natAbs < Nat.pow 2 64 := by
    change n.natAbs ≤ 2 ^ 63 ∧ n.natAbs < 2 ^ 64
    omega
  simp only [Number.toInt?, Number.ofInt, ofDigits_digitsOf, decide_eq_true_eq]
  by_cases hneg : n < 0
  · have hfits : ¬ (n.natAbs = 0 ∨ Nat.pow 2 63 < n.natAbs) := by omega
    rw [if_pos hneg, if_neg hfits]
    congr 1
    omega
  · rw [if_neg hneg, if_pos hsize.2]
    congr 1
    omega

theorem int64?_integer {n : Int} (hlow : -(2 : Int) ^ 63 ≤ n) (hhigh : n < (2 : Int) ^ 63) :
    int64? (integer n) = some n := by
  have hfits : n < Nat.pow 2 63 := hhigh
  rw [integer, int64?, toInt?_ofInt hlow hhigh, Option.bind_some, if_pos hfits]

theorem integer_injective : Function.Injective integer := by
  intro m n h
  have hnumber : Number.ofInt m = Number.ofInt n := Json.number.inj h
  have hdigits := congrArg (fun x => ofDigits x.whole) hnumber
  have hsign := congrArg Number.negative hnumber
  simp only [Number.ofInt, ofDigits_digitsOf, decide_eq_decide] at hdigits hsign
  omega

end DeviceTrust.Json
