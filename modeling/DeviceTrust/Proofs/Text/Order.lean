import DeviceTrust.Proofs.Bytes
import Mathlib.Tactic.SplitIfs

/-!
# The order of texts

Texts are in the order of their first characters that differ. Bytes are, too, and it is the same order: a character
takes the more bytes the higher it is, the first byte tells how many, and the other bytes hold its digits from the
highest to the lowest.
-/

namespace DeviceTrust.Bytes

theorem ofNat_lt_ofNat_iff {m n : Nat} (hm : m < 256) (hn : n < 256) : UInt8.ofNat m < UInt8.ofNat n ↔ m < n := by
  rw [UInt8.lt_iff_toNat_lt, UInt8.toNat_ofNat_of_lt' hm, UInt8.toNat_ofNat_of_lt' hn]

theorem ofNat_eq_ofNat_iff {m n : Nat} (hm : m < 256) (hn : n < 256) : UInt8.ofNat m = UInt8.ofNat n ↔ m = n := by
  rw [← UInt8.toNat_inj, UInt8.toNat_ofNat_of_lt' hm, UInt8.toNat_ofNat_of_lt' hn]

/-- The bytes of two characters differ before either of them ends, whatever comes after them. -/
theorem utf8EncodeChar_append_lt {c d : Char} (h : c < d) (r s : Bytes) :
    String.utf8EncodeChar c ++ r < String.utf8EncodeChar d ++ s := by
  have hlt : c.val.toNat < d.val.toNat := h
  have hvalid : d.val.toNat < 55296 ∨ 57343 < d.val.toNat ∧ d.val.toNat < 1114112 := d.valid
  rw [String.utf8EncodeChar, String.utf8EncodeChar]
  generalize c.val.toNat = m at *
  generalize d.val.toNat = n at *
  -- of two numbers the greater one has the greater digits to the base 64, or the greater last one after equal others
  have hdigit (m n : Nat) (h : m < n) : m / 64 < n / 64 ∨ m / 64 = n / 64 ∧ m % 64 < n % 64 := by omega
  have hmiddle := hdigit (m / 64) (n / 64)
  have hhigh := hdigit (m / 4096) (n / 4096)
  rw [Nat.div_div_eq_div_mul, Nat.div_div_eq_div_mul] at hmiddle hhigh
  have hm : m / 262144 < 8 := by omega
  have hn : n / 262144 < 8 := by omega
  split_ifs
  all_goals
    simp (disch := omega) only [List.cons_append, List.nil_append, List.cons_lt_cons_iff, ofNat_lt_ofNat_iff,
      ofNat_eq_ofNat_iff]
    omega

theorem flatMap_utf8EncodeChar_lt {cs ds : List Char} (h : cs < ds) :
    cs.flatMap String.utf8EncodeChar < ds.flatMap String.utf8EncodeChar := by
  induction cs generalizing ds with
  | nil =>
    cases ds with
    | nil => exact absurd h (List.lt_irrefl [])
    | cons d ds =>
      obtain ⟨x, rest, hbytes⟩ := List.exists_cons_of_ne_nil (String.utf8EncodeChar_ne_nil (c := d))
      rw [List.flatMap_nil, List.flatMap_cons, hbytes]
      exact List.nil_lt_cons _ _
  | cons c cs ih =>
    cases ds with
    | nil => exact absurd h (List.not_lt_nil _)
    | cons d ds =>
      rw [List.flatMap_cons, List.flatMap_cons]
      rcases List.cons_lt_cons_iff.mp h with hlt | ⟨rfl, hrest⟩
      · exact utf8EncodeChar_append_lt hlt _ _
      · exact List.append_left_lt (ih hrest)

theorem ofText_lt_of_lt {a b : String} (h : a < b) : ofText a < ofText b := by
  rw [ofText_eq, ofText_eq]
  exact flatMap_utf8EncodeChar_lt h

/-- **Texts are in the order of their bytes.** -/
theorem ofText_lt_iff {a b : String} : ofText a < ofText b ↔ a < b := by
  constructor
  · intro h
    rcases Std.lt_trichotomy a b with hab | rfl | hba
    · exact hab
    · exact absurd h (List.lt_irrefl _)
    · exact absurd h (List.lt_asymm (ofText_lt_of_lt hba))
  · exact ofText_lt_of_lt

end DeviceTrust.Bytes
