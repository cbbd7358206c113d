import DeviceTrust.Bytes
import Mathlib.Tactic.Ring

/-!
# Bytes, and the texts and numbers they encode

The bytes of a text are those of its characters in order, and they are always well-formed. A
character below 128 is one byte, so a text of such characters and its bytes say the same. The
bytes of a number say what it is, as long as there are enough of them.
-/

namespace DeviceTrust.Bytes

theorem forall_byte {p : UInt8 → Prop} (h : ∀ n < 256, p (UInt8.ofNat n)) (b : UInt8) : p b := by
  have hb := h b.toNat b.toNat_lt
  rwa [UInt8.ofNat_toNat] at hb

theorem ofText_eq (s : String) : ofText s = s.toList.flatMap String.utf8EncodeChar := by
  have h : s.toByteArray = s.toList.utf8Encode := by
    rw [← String.toByteArray_ofList, String.ofList_toList]
  change s.toByteArray.data.toList = _
  rw [h, List.utf8Encode]
  simp

theorem text?_ofText (s : String) : text? (ofText s) = some s :=
  dif_pos s.isValidUTF8

theorem text?_eq_some_iff {b : Bytes} {s : String} : text? b = some s ↔ b = ofText s := by
  constructor
  · intro h
    unfold text? String.fromUTF8? at h
    split at h
    · cases h
      rfl
    · cases h
  · rintro rfl
    exact text?_ofText s

theorem ofText_append (s t : String) : ofText (s ++ t) = ofText s ++ ofText t := by
  rw [ofText_eq, ofText_eq, ofText_eq, String.toList_append, List.flatMap_append]

/-- Bytes below 128 are the bytes of the text that has them as characters. -/
theorem ofText_ofList_map {b : Bytes} (h : ∀ x ∈ b, x < 128) :
    ofText (String.ofList (b.map fun x => Char.ofNat x.toNat)) = b := by
  rw [ofText_eq, String.toList_ofList]
  induction b with
  | nil => rfl
  | cons x rest ih =>
    have hbyte : ∀ x : UInt8, x < 128 → String.utf8EncodeChar (Char.ofNat x.toNat) = [x] :=
      forall_byte (by decide +kernel)
    rw [List.forall_mem_cons] at h
    rw [List.map_cons, List.flatMap_cons, hbyte x h.1, ih h.2]
    rfl

theorem toNat_cons (x : UInt8) (b : Bytes) : toNat (x :: b) = x.toNat * 256 ^ b.length + toNat b := by
  have hfold (acc : Nat) (b : Bytes) :
      b.foldl (fun acc x => acc * 256 + x.toNat) acc = acc * 256 ^ b.length + toNat b := by
    unfold toNat
    induction b generalizing acc with
    | nil => simp
    | cons y rest ih =>
      rw [List.foldl_cons, List.foldl_cons, ih, ih (0 * 256 + y.toNat), List.length_cons]
      ring
  rw [toNat, List.foldl_cons, hfold]
  simp

theorem toNat_lt (b : Bytes) : toNat b < 256 ^ b.length := by
  induction b with
  | nil => decide
  | cons x rest ih =>
    have hx : x.toNat + 1 ≤ 256 := x.toNat_lt
    rw [toNat_cons, List.length_cons, pow_succ']
    calc x.toNat * 256 ^ rest.length + toNat rest
        < x.toNat * 256 ^ rest.length + 256 ^ rest.length := Nat.add_lt_add_left ih _
      _ = (x.toNat + 1) * 256 ^ rest.length := by ring
      _ ≤ 256 * 256 ^ rest.length := Nat.mul_le_mul_right _ hx

theorem ofNat_succ (width n : Nat) : ofNat (width + 1) n = UInt8.ofNat (n / 256 ^ width) :: ofNat width n := by
  have hshift : n >>> (8 * width) = n / 256 ^ width := by
    rw [Nat.shiftRight_eq_div_pow]
    exact congrArg (n / ·) (Nat.pow_mul 2 8 width)
  rw [ofNat, List.range_succ, List.reverse_append, List.map_append, List.reverse_singleton, List.map_singleton,
    hshift]
  rfl

/-- The last bytes of a number say what it is, up to what they leave out. -/
theorem toNat_ofNat (width n : Nat) : toNat (ofNat width n) = n % 256 ^ width := by
  induction width with
  | zero => rw [pow_zero, Nat.mod_one]; rfl
  | succ width ih =>
    rw [ofNat_succ, toNat_cons, length_ofNat, ih, pow_succ, Nat.mod_mul, UInt8.toNat_ofNat']
    ring

theorem toNat_inj {b b' : Bytes} (hlength : b.length = b'.length) (h : toNat b = toNat b') : b = b' := by
  induction b generalizing b' with
  | nil => exact (List.length_eq_zero_iff.mp hlength.symm).symm
  | cons x rest ih =>
    cases b' with
    | nil => cases hlength
    | cons x' rest' =>
      have hrest : rest.length = rest'.length := Nat.succ.inj hlength
      rw [toNat_cons, toNat_cons, ← hrest, Nat.mul_comm, Nat.mul_comm x'.toNat] at h
      -- both are the division of one number, with remainders below the divisor
      have hlow : toNat rest < 256 ^ rest.length := toNat_lt rest
      have hlow' : toNat rest' < 256 ^ rest.length := hrest ▸ toNat_lt rest'
      have hpos : 0 < 256 ^ rest.length := Nat.pow_pos (by decide)
      have hhigh : x.toNat = x'.toNat := by
        have hdiv := congrArg (· / 256 ^ rest.length) h
        simpa only [Nat.mul_add_div hpos, Nat.div_eq_of_lt hlow, Nat.div_eq_of_lt hlow', Nat.add_zero] using hdiv
      have htail : toNat rest = toNat rest' := by
        rw [hhigh] at h
        exact Nat.add_left_cancel h
      rw [UInt8.toNat_inj.mp hhigh, ih hrest htail]

theorem ofNat_toNat (b : Bytes) : ofNat b.length (toNat b) = b := by
  refine toNat_inj (length_ofNat _ _) ?_
  rw [toNat_ofNat, Nat.mod_eq_of_lt (toNat_lt b)]

end DeviceTrust.Bytes
