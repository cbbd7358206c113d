import DeviceTrust.Cipher.Aes
import DeviceTrust.Proofs.Bytes

/-!
# Deciphering a block undoes enciphering it

The argument follows the layers of a round. Substitution is undone byte by byte, moving
the rows by moving them back, and adding a round key by adding it again. Mixing is the one
layer with algebra in it: multiplication by a field element is additive, so the product of
the two circulant matrices is computed on their entries, 256 values for each. No property
of the key schedule is used: the statements hold of every list of round keys.
-/

namespace DeviceTrust.Aes

/-- Whether no byte comes twice in a list, and none is a bit of `seen`. Bits of a number are
cheaper to look up than earlier bytes of the list. -/
def distinct (seen : Nat) : List UInt8 → Bool
  | [] => true
  | b :: rest => !seen.testBit b.toNat && distinct (seen ||| 1 <<< b.toNat) rest

theorem nodup_of_distinct {seen : Nat} {l : List UInt8} (h : distinct seen l = true) :
    l.Nodup ∧ ∀ b ∈ l, seen.testBit b.toNat = false := by
  induction l generalizing seen with
  | nil => simp
  | cons b rest ih =>
    simp only [distinct, Bool.and_eq_true, Bool.not_eq_true'] at h
    obtain ⟨hb, hrest⟩ := h
    obtain ⟨hnodup, hfree⟩ := ih hrest
    have hseen : ∀ c ∈ rest, seen.testBit c.toNat = false ∧ c ≠ b := by
      intro c hc
      have hbit := hfree c hc
      rw [Nat.testBit_or, Bool.or_eq_false_iff] at hbit
      refine ⟨hbit.1, ?_⟩
      rintro rfl
      simp [Nat.testBit_shiftLeft] at hbit
    refine ⟨List.nodup_cons.mpr ⟨fun hmem => (hseen b hmem).2 rfl, hnodup⟩, ?_⟩
    intro c hc
    rcases List.mem_cons.mp hc with rfl | hc
    · exact hb
    · exact (hseen c hc).1

theorem substitution_nodup : substitution.toList.Nodup := by
  have h : distinct 0 substitution.toList = true := by decide +kernel
  exact (nodup_of_distinct h).1

theorem substitution_length : substitution.toList.length = 256 := by decide +kernel

theorem unsub_eq (b : UInt8) : unsub b = UInt8.ofNat (substitution.toList.idxOf b) := by
  have hb : b.toNat < 256 := b.toNat_lt
  have hsize : b.toNat < positions.size := by simpa [positions] using hb
  rw [unsub, Array.getD_eq_getD_getElem?, Array.getElem?_eq_getElem hsize]
  simp [positions]

theorem unsub_sub (b : UInt8) : unsub (sub b) = b := by
  have hb : b.toNat < substitution.toList.length := by
    rw [substitution_length]
    exact b.toNat_lt
  have hsub : sub b = substitution.toList[b.toNat] := by
    rw [sub, Array.getD_eq_getD_getElem?, ← Array.getElem?_toList, List.getElem?_eq_getElem hb]
    rfl
  rw [unsub_eq, hsub, substitution_nodup.idxOf_getElem _ hb, UInt8.ofNat_toNat]

/-- Doubling as a sum of shifts: the top bit comes back at the places of `0x1b`. -/
theorem double_eq_shifts (b : UInt8) :
    double b = b <<< 1 ^^^ b >>> 7 ^^^ b >>> 7 <<< 1 ^^^ b >>> 7 <<< 3 ^^^ b >>> 7 <<< 4 := by
  revert b
  exact Bytes.forall_byte (by decide +kernel)

theorem double_xor (a b : UInt8) : double (a ^^^ b) = double a ^^^ double b := by
  simp only [double_eq_shifts, UInt8.shiftLeft_xor, UInt8.shiftRight_xor]
  ac_rfl

theorem times_xor (k : Nat) (a b : UInt8) : times k (a ^^^ b) = times k a ^^^ times k b := by
  have hpick (c : Bool) (x y : UInt8) :
      (if c = true then x ^^^ y else 0) = (if c = true then x else 0) ^^^ (if c = true then y else 0) := by
    cases c <;> simp
  simp only [times, double_xor, hpick]
  ac_rfl

/-- The first row of the inverse matrix times each column of the matrix. -/
theorem times_row (b : UInt8) :
    times 14 (times 2 b) ^^^ times 11 (times 1 b) ^^^ times 13 (times 1 b) ^^^ times 9 (times 3 b) = b ∧
    times 14 (times 3 b) ^^^ times 11 (times 2 b) ^^^ times 13 (times 1 b) ^^^ times 9 (times 1 b) = 0 ∧
    times 14 (times 1 b) ^^^ times 11 (times 3 b) ^^^ times 13 (times 2 b) ^^^ times 9 (times 1 b) = 0 ∧
    times 14 (times 1 b) ^^^ times 11 (times 1 b) ^^^ times 13 (times 3 b) ^^^ times 9 (times 2 b) = 0 := by
  revert b
  exact Bytes.forall_byte (by decide +kernel)

/-- One byte of a mixed column that is unmixed. The other three bytes are the same
statement about the rotated column. -/
theorem unmix_byte (a b c d : UInt8) :
    times 14 (times 2 a ^^^ times 3 b ^^^ times 1 c ^^^ times 1 d) ^^^
      times 11 (times 1 a ^^^ times 2 b ^^^ times 3 c ^^^ times 1 d) ^^^
      times 13 (times 1 a ^^^ times 1 b ^^^ times 2 c ^^^ times 3 d) ^^^
      times 9 (times 3 a ^^^ times 1 b ^^^ times 1 c ^^^ times 2 d) = a := by
  have ha := (times_row a).1
  have hb := (times_row b).2.1
  have hc := (times_row c).2.2.1
  have hd := (times_row d).2.2.2
  simp only [times_xor]
  calc _ = (times 14 (times 2 a) ^^^ times 11 (times 1 a) ^^^ times 13 (times 1 a) ^^^ times 9 (times 3 a)) ^^^
        (times 14 (times 3 b) ^^^ times 11 (times 2 b) ^^^ times 13 (times 1 b) ^^^ times 9 (times 1 b)) ^^^
        (times 14 (times 1 c) ^^^ times 11 (times 3 c) ^^^ times 13 (times 2 c) ^^^ times 9 (times 1 c)) ^^^
        (times 14 (times 1 d) ^^^ times 11 (times 1 d) ^^^ times 13 (times 3 d) ^^^ times 9 (times 2 d)) := by
        ac_rfl
    _ = a := by rw [ha, hb, hc, hd]; simp

namespace Column

theorem unmix_mix (c : Column) : c.mix.unmix = c := by
  obtain ⟨a, b, c, d⟩ := c
  simp only [mix, unmix, circulant, mk.injEq]
  refine ⟨?_, ?_, ?_, ?_⟩
  · exact unmix_byte a b c d
  · refine Eq.trans ?_ (unmix_byte b c d a)
    ac_rfl
  · refine Eq.trans ?_ (unmix_byte c d a b)
    ac_rfl
  · refine Eq.trans ?_ (unmix_byte d a b c)
    ac_rfl

theorem map_unsub_map_sub (c : Column) : (c.map sub).map unsub = c := by
  simp only [map, unsub_sub]

theorem xor_self_right (c d : Column) : (c.xor d).xor d = c := by
  simp only [xor, UInt8.xor_assoc, UInt8.xor_self, UInt8.xor_zero]

end Column

namespace Block

theorem unscramble_scramble (b : Block) : b.scramble.unscramble = b := by
  have hshift (d : Block) : unshift (shift d) = d := rfl
  simp only [scramble, unscramble, hshift, map, Column.map_unsub_map_sub]

theorem map_unmix_map_mix (b : Block) : (b.map Column.mix).map Column.unmix = b := by
  simp only [map, Column.unmix_mix]

theorem xor_self_right (a b : Block) : (a.xor b).xor b = a := by
  simp only [xor, Column.xor_self_right]

end Block

theorem undoRounds_runRounds (keys : List Block) (b : Block) : undoRounds keys (runRounds keys b) = b := by
  induction keys generalizing b with
  | nil => rfl
  | cons k rest ih =>
    -- the last round does not mix, so it is a case of its own
    cases rest with
    | nil =>
      change ((b.scramble.xor k).xor k).unscramble = b
      rw [Block.xor_self_right, Block.unscramble_scramble]
    | cons k' rest =>
      change (((undoRounds (k' :: rest) (runRounds (k' :: rest) _)).xor k).map Column.unmix).unscramble = b
      rw [ih, Block.xor_self_right, Block.map_unmix_map_mix, Block.unscramble_scramble]

/-- **Deciphering undoes enciphering**, under any list of round keys. -/
theorem decipher_encipher (keys : List Block) (b : Block) : decipher keys (encipher keys b) = b := by
  cases keys with
  | nil => rfl
  | cons k rest => rw [encipher, decipher, undoRounds_runRounds, Block.xor_self_right]

end DeviceTrust.Aes
