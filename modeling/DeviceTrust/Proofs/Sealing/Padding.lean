import DeviceTrust.Sealing.Framing
import Mathlib.Data.List.DropRight

/-!
# What padding adds and what unpadding takes

Unpadding is described without its scan: `Strips b kept` says that `b` is `kept` followed by
padding bytes only, and that `kept` does not end in one. Exactly one text is stripped from
`b` in this sense, and `unpad` finds it. The marker 0x80 is itself a padding byte, so
unpadding a padded text loses the marker together with whatever padding bytes the text
ended in: `unpad (pad b) = unpad b`, not `b`.
-/

namespace DeviceTrust.Sealing

variable {b kept : Bytes}

/-- Whether a text ends in a byte that unpadding drops. -/
def EndsInPadding (b : Bytes) : Prop := ∃ x ∈ b.getLast?, isPadding x = true

structure Strips (b kept : Bytes) : Prop where
  tail : ∃ t : Bytes, b = kept ++ t ∧ ∀ x ∈ t, isPadding x = true
  stops : ¬ EndsInPadding kept

theorem isPadding_iff {x : UInt8} : isPadding x = true ↔ x = 0x00 ∨ x = 0x80 := by
  rw [isPadding, Bool.or_eq_true, beq_iff_eq, beq_iff_eq, or_comm]

/-- The last byte of a text with a non-empty end is the last byte of that end. -/
theorem endsInPadding_append (a : Bytes) (hb : b ≠ []) : EndsInPadding (a ++ b) ↔ EndsInPadding b := by
  rw [EndsInPadding, EndsInPadding, List.getLast?_append_of_ne_nil a hb]

theorem unpad_append {t : Bytes} (ht : ∀ x ∈ t, isPadding x = true) (b : Bytes) :
    unpad (b ++ t) = unpad b := by
  have hrev : ∀ x ∈ t.reverse, isPadding x = true := fun x hx => ht x (List.mem_reverse.mp hx)
  rw [unpad, unpad, List.reverse_append, List.dropWhile_append_of_pos hrev]

theorem unpad_eq_self_iff : unpad b = b ↔ ¬ EndsInPadding b := by
  change b.rdropWhile isPadding = b ↔ _
  rw [List.rdropWhile_eq_self_iff, EndsInPadding]
  constructor
  · rintro h ⟨x, hx, hpad⟩
    obtain ⟨hne, rfl⟩ := List.mem_getLast?_eq_getLast hx
    exact h hne hpad
  · intro h hne hpad
    exact h ⟨_, List.getLast_mem_getLast? hne, hpad⟩

/-- **Unpadding strips a text**: it takes padding bytes only, and as many as there are. -/
theorem strips_unpad (b : Bytes) : Strips b (unpad b) where
  tail := ⟨b.rtakeWhile isPadding, List.rdropWhile_append_rtakeWhile.symm,
    fun _ hx => List.mem_rtakeWhile_imp hx⟩
  stops := unpad_eq_self_iff.mp (List.rdropWhile_idempotent isPadding b)

theorem strips_iff : Strips b kept ↔ kept = unpad b := by
  constructor
  · rintro ⟨⟨t, rfl, ht⟩, hstops⟩
    rw [unpad_append ht, unpad_eq_self_iff.mpr hstops]
  · rintro rfl
    exact strips_unpad b

/-- Nothing at the end of a text can be taken for padding: it is empty, or its last byte is another one. -/
def Unambiguous (b : Bytes) : Prop := b = [] ∨ ∃ x, b.getLast? = some x ∧ x ≠ 0x00 ∧ x ≠ 0x80

theorem unambiguous_iff : Unambiguous b ↔ ¬ EndsInPadding b := by
  rw [Unambiguous, EndsInPadding]
  cases hlast : b.getLast? with
  | none => simp [List.getLast?_eq_none_iff.mp hlast]
  | some x =>
    have hne : b ≠ [] := by
      rintro rfl
      cases hlast
    simp [hne, isPadding_iff]

/-- Of the prefixes of a text that end in no padding byte, the one that unpadding leaves is the longest. -/
theorem prefix_unpad {p : Bytes} (hp : p <+: b) (hstops : ¬ EndsInPadding p) : p <+: unpad b := by
  obtain ⟨⟨t, ht, hpadding⟩, -⟩ := strips_unpad b
  have hkept : unpad b <+: b := ⟨t, ht.symm⟩
  by_cases hlength : p.length ≤ (unpad b).length
  · exact List.prefix_of_prefix_length_le hp hkept hlength
  · -- a longer prefix ends within what was taken
    exfalso
    obtain ⟨u, rfl⟩ := List.prefix_of_prefix_length_le hkept hp (by omega)
    have hu : u ≠ [] := by
      rintro rfl
      simp at hlength
    obtain ⟨v, hv⟩ := hp
    have huv : u ++ v = t := by
      rw [List.append_assoc] at hv
      exact List.append_cancel_left (hv.trans ht)
    apply hstops
    rw [endsInPadding_append _ hu]
    exact ⟨u.getLast hu, List.getLast_mem_getLast? hu, hpadding _ (huv ▸ List.mem_append_left v (List.getLast_mem hu))⟩

theorem length_unpad_le (b : Bytes) : (unpad b).length ≤ b.length := by
  obtain ⟨t, ht, -⟩ := (strips_unpad b).tail
  have hlen := congrArg List.length ht
  rw [List.length_append] at hlen
  omega

theorem isPadding_of_mem_filler {n : Nat} {x : UInt8} (hx : x ∈ filler n) : isPadding x = true := by
  cases n with
  | zero => simp [filler] at hx
  | succ n =>
    rcases List.mem_cons.mp hx with rfl | hx
    · rfl
    · rw [List.eq_of_mem_replicate hx]
      rfl

theorem length_filler (n : Nat) : (filler n).length = n := by
  cases n <;> simp [filler]

theorem length_pad (b : Bytes) : (pad b).length = 16 * ((b.length + 15) / 16) := by
  rw [pad, List.length_append, length_filler, padLength, blockSize]
  omega

theorem unpad_pad (b : Bytes) : unpad (pad b) = unpad b :=
  unpad_append (fun _ => isPadding_of_mem_filler) b

example : unpad (pad [0x61, 0x80]) = [0x61] := by decide

theorem pad_inj {b' : Bytes} (hb : ¬ EndsInPadding b) (hb' : ¬ EndsInPadding b') (h : pad b = pad b') : b = b' :=
  calc b = unpad (pad b) := by rw [unpad_pad, unpad_eq_self_iff.mpr hb]
    _ = unpad (pad b') := by rw [h]
    _ = b' := by rw [unpad_pad, unpad_eq_self_iff.mpr hb']

/-- **Padding completes the last block and unpadding finds the longest unambiguous start.** So unpadding undoes padding
exactly on the unambiguous texts, and those can be told apart by their padded forms. -/
theorem padding_laws (b : Bytes) :
    (b <+: pad b ∧ 16 ∣ (pad b).length ∧
      ∃ t, pad b = b ++ t ∧ t.length = padLength b.length ∧ t.length < 16 ∧ ∀ x ∈ t, x = 0x00 ∨ x = 0x80) ∧
    (unpad b <+: b ∧ Unambiguous (unpad b) ∧ ∀ p, p <+: b → Unambiguous p → p <+: unpad b) ∧
    unpad (unpad b) = unpad b ∧ unpad (pad b) = unpad b ∧
    (unpad (pad b) = b ↔ Unambiguous b) ∧
    ∀ b', Unambiguous b → Unambiguous b' → pad b = pad b' → b = b' := by
  obtain ⟨⟨t, ht, -⟩, hstops⟩ := strips_unpad b
  refine ⟨⟨List.prefix_append _ _, ⟨_, length_pad b⟩, filler (padLength b.length), rfl, length_filler _, ?_, ?_⟩,
    ⟨⟨t, ht.symm⟩, unambiguous_iff.mpr hstops, fun p hp hend => prefix_unpad hp (unambiguous_iff.mp hend)⟩,
    unpad_eq_self_iff.mpr hstops, unpad_pad b, ?_, ?_⟩
  · rw [length_filler, padLength, blockSize]
    omega
  · intro x hx
    exact isPadding_iff.mp (isPadding_of_mem_filler hx)
  · rw [unpad_pad, unpad_eq_self_iff, unambiguous_iff]
  · intro b' hb hb' h
    exact pad_inj (unambiguous_iff.mp hb) (unambiguous_iff.mp hb') h

/-- A text with a marker in it, and the same text in front of padding of all sorts. -/
theorem padding_laws_with_marker_inside :
    Unambiguous [0x61, 0x80, 0x62] ∧ [0x61, 0x80, 0x62] <+: unpad [0x61, 0x80, 0x62, 0x80, 0x00, 0x80] ∧
      unpad [0x61, 0x80, 0x62, 0x80, 0x00, 0x80] = [0x61, 0x80, 0x62] := by
  have hend : Unambiguous [0x61, 0x80, 0x62] := .inr ⟨0x62, rfl, by decide, by decide⟩
  obtain ⟨-, ⟨-, hstart, hlongest⟩, -, -, -, -⟩ := padding_laws [0x61, 0x80, 0x62, 0x80, 0x00, 0x80]
  refine ⟨hend, hlongest _ (List.prefix_append _ [0x80, 0x00, 0x80]) hend, ?_⟩
  obtain ⟨-, -, -, -, -, hinj⟩ := padding_laws (unpad [0x61, 0x80, 0x62, 0x80, 0x00, 0x80])
  exact hinj [0x61, 0x80, 0x62] hstart hend (by decide)

end DeviceTrust.Sealing
