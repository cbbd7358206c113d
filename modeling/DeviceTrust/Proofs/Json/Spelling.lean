import DeviceTrust.Json.Reader
import DeviceTrust.Proofs.Bytes

/-!
# Spellings are read back

What the reader takes off the input behind a quote is a spelling of the grammar, and it takes all of
it. Writing escapes one byte at a time, and there are three ways in which it does so. Each of them
makes a longer spelling of a spelling, and is undone in one step, whatever follows it. So any text can
be written and read back, with its quotes, backslashes, controls and all.
-/

namespace DeviceTrust.Json

variable {b : UInt8} {sp piece input rest : Bytes}

def IsHexDigit (b : UInt8) : Prop := 0x30 ≤ b ∧ b ≤ 0x39 ∨ 0x41 ≤ b ∧ b ≤ 0x46 ∨ 0x61 ≤ b ∧ b ≤ 0x66

instance : DecidablePred IsHexDigit := fun b =>
  inferInstanceAs (Decidable (0x30 ≤ b ∧ b ≤ 0x39 ∨ 0x41 ≤ b ∧ b ≤ 0x46 ∨ 0x61 ≤ b ∧ b ≤ 0x66))

/-- What stands between the quotes of a string. -/
inductive Spelling : Bytes → Prop where
  | nil : Spelling []
  | plain {b : UInt8} {sp : Bytes} (hquote : b ≠ 0x22) (hslash : b ≠ 0x5c) (hcontrol : 0x20 ≤ b) (h : Spelling sp) :
    Spelling (b :: sp)
  | short {e : UInt8} {sp : Bytes} (he : e ∈ [0x22, 0x5c, 0x2f, 0x62, 0x66, 0x6e, 0x72, 0x74]) (h : Spelling sp) :
    Spelling (0x5c :: e :: sp)
  | hex {p q r s : UInt8} {sp : Bytes} (hdigits : ∀ d ∈ [p, q, r, s], IsHexDigit d) (h : Spelling sp) :
    Spelling (0x5c :: 0x75 :: p :: q :: r :: s :: sp)

theorem isSome_shortEscape?_iff (e : UInt8) :
    (shortEscape? e).isSome ↔ e ∈ [0x22, 0x5c, 0x2f, 0x62, 0x66, 0x6e, 0x72, 0x74] := by
  have hall : ∀ e : UInt8, (shortEscape? e).isSome ↔ e ∈ [0x22, 0x5c, 0x2f, 0x62, 0x66, 0x6e, 0x72, 0x74] :=
    Bytes.forall_byte (by decide +kernel)
  exact hall e

theorem isSome_hexValue?_iff (b : UInt8) : (hexValue? b).isSome ↔ IsHexDigit b := by
  have hall : ∀ b : UInt8, (hexValue? b).isSome ↔ IsHexDigit b := Bytes.forall_byte (by decide +kernel)
  exact hall b

theorem isSome_hex4?_iff (p q r s : UInt8) : (hex4? p q r s).isSome ↔ ∀ d ∈ [p, q, r, s], IsHexDigit d := by
  simp only [List.forall_mem_cons, ← isSome_hexValue?_iff, hex4?]
  cases hexValue? p <;> cases hexValue? q <;> cases hexValue? r <;> cases hexValue? s <;> simp

/-- **A spelling is read up to its quote.** -/
theorem Spelling.read (h : Spelling sp) (rest : Bytes) : readSpelling (sp ++ 0x22 :: rest) = some (sp, rest) := by
  induction h with
  | nil =>
    rw [List.nil_append, readSpelling.eq_def]
    exact if_pos rfl
  | plain hquote hslash hcontrol _ ih =>
    rw [List.cons_append, readSpelling.eq_def]
    simp only [if_neg hquote, if_neg hslash, if_neg (UInt8.not_lt.mpr hcontrol), ih, Option.map_some]
  | short he _ ih =>
    have hquote : ¬ (0x5c : UInt8) = 0x22 := by decide
    have hlong := ne_of_mem_of_not_mem he (show (0x75 : UInt8) ∉ _ by decide)
    rw [List.cons_append, List.cons_append, readSpelling.eq_def]
    simp only [if_neg hquote, if_true, if_neg hlong, if_pos ((isSome_shortEscape?_iff _).mpr he), ih, Option.map_some]
  | hex hdigits _ ih =>
    have hquote : ¬ (0x5c : UInt8) = 0x22 := by decide
    simp only [List.cons_append, readSpelling, if_neg hquote, if_true,
      if_pos ((isSome_hex4?_iff _ _ _ _).mpr hdigits), ih, Option.map_some]

/-- **What is read up to a quote is a spelling.** -/
theorem spelling_of_readSpelling (h : readSpelling input = some (sp, rest)) :
    Spelling sp ∧ input = sp ++ 0x22 :: rest := by
  fun_induction readSpelling input generalizing sp rest with
  | case2 after =>
    cases h
    exact ⟨.nil, rfl⟩
  | case4 p q r s tail hdigits _ ih =>
    obtain ⟨_, hread, ⟨⟩⟩ := Option.map_eq_some_iff.mp h
    obtain ⟨hsp, rfl⟩ := ih hread
    exact ⟨.hex ((isSome_hex4?_iff p q r s).mp hdigits) hsp, rfl⟩
  | case7 e after _ hshort _ ih =>
    obtain ⟨_, hread, ⟨⟩⟩ := Option.map_eq_some_iff.mp h
    obtain ⟨hsp, rfl⟩ := ih hread
    exact ⟨.short ((isSome_shortEscape?_iff e).mp hshort) hsp, rfl⟩
  | case10 b after hquote hslash hcontrol ih =>
    obtain ⟨_, hread, ⟨⟩⟩ := Option.map_eq_some_iff.mp h
    obtain ⟨hsp, rfl⟩ := ih hread
    exact ⟨.plain hquote hslash (UInt8.not_lt.mp hcontrol) hsp, rfl⟩
  | _ => cases h

inductive EscapeOf (b : UInt8) : Bytes → Prop where
  | plain (hquote : b ≠ 0x22) (hslash : b ≠ 0x5c) (hcontrol : ¬ b < 0x20) : EscapeOf b [b]
  | short (e : UInt8) (hlong : e ≠ 0x75) (h : shortEscape? e = some b) : EscapeOf b [0x5c, e]
  | hex (p q r s : UInt8) (h : hex4? p q r s = some b.toNat) (hcontrol : b.toNat < 0x20) :
    EscapeOf b [0x5c, 0x75, p, q, r, s]

theorem escapeOf_escapeByte (b : UInt8) : EscapeOf b (escapeByte b) := by
  unfold escapeByte
  split
  · subst b; exact .short _ (by decide) rfl
  split
  · subst b; exact .short _ (by decide) rfl
  split
  · subst b; exact .short _ (by decide) rfl
  split
  · subst b; exact .short _ (by decide) rfl
  split
  · subst b; exact .short _ (by decide) rfl
  split
  · subst b; exact .short _ (by decide) rfl
  split
  · subst b; exact .short _ (by decide) rfl
  split
  · rename_i hcontrol
    have hdigits : ∀ b : UInt8, b < 0x20 → hex4? 0x30 0x30 (UInt8.ofNat (Bytes.hexDigit (b.toNat / 16)).toNat)
        (UInt8.ofNat (Bytes.hexDigit (b.toNat % 16)).toNat) = some b.toNat :=
      Bytes.forall_byte (by decide +kernel)
    exact .hex _ _ _ _ (hdigits b hcontrol) hcontrol
  · rename_i hquote hslash _ _ _ _ _ hcontrol
    exact .plain hquote hslash hcontrol

theorem codePointBytes_of_control (h : b.toNat < 0x20) : codePointBytes b.toNat = [b] := by
  have hall : ∀ b : UInt8, b.toNat < 0x20 → codePointBytes b.toNat = [b] := Bytes.forall_byte (by decide +kernel)
  exact hall b h

namespace EscapeOf

theorem unspellBytes_append (h : EscapeOf b sp) (rest : Bytes) :
    unspellBytes (sp ++ rest) = (unspellBytes rest).map (b :: ·) := by
  cases h with
  | plain _ hslash _ =>
    rw [List.singleton_append, unspellBytes.eq_def]
    simp only [if_neg hslash]
  | short e hlong h =>
    rw [List.cons_append, List.singleton_append, unspellBytes.eq_def]
    simp only [if_true, if_neg hlong, h]
  | hex p q r s h hcontrol =>
    have hlow : ¬ (0xDC00 ≤ b.toNat ∧ b.toNat < 0xE000) := by omega
    have hhigh : ¬ (0xD800 ≤ b.toNat ∧ b.toNat < 0xDC00) := by omega
    simp only [List.cons_append, List.nil_append, unspellBytes, if_true, h, if_neg hlow, if_neg hhigh,
      codePointBytes_of_control hcontrol]

theorem spelling_append (h : EscapeOf b piece) (hsp : Spelling sp) : Spelling (piece ++ sp) := by
  cases h with
  | plain hquote hslash hcontrol => exact .plain hquote hslash (UInt8.not_lt.mp hcontrol) hsp
  | short e _ h => exact .short ((isSome_shortEscape?_iff e).mp (by rw [h]; rfl)) hsp
  | hex p q r s h _ => exact .hex ((isSome_hex4?_iff p q r s).mp (by rw [h]; rfl)) hsp

end EscapeOf

theorem unspellBytes_escape (bytes : Bytes) : unspellBytes (bytes.flatMap escapeByte) = some bytes := by
  induction bytes with
  | nil => rfl
  | cons b rest ih =>
    rw [List.flatMap_cons, (escapeOf_escapeByte b).unspellBytes_append, ih]
    rfl

theorem spelling_escape (bytes : Bytes) : Spelling (bytes.flatMap escapeByte) := by
  induction bytes with
  | nil => exact .nil
  | cons b rest ih =>
    rw [List.flatMap_cons]
    exact (escapeOf_escapeByte b).spelling_append ih

/-- **Every text is read back from its spelling.** -/
theorem unspell_spell (s : String) : unspell (spell s) = some s := by
  rw [unspell, spell, unspellBytes_escape, Option.bind_some, Bytes.text?_ofText]

theorem spelling_spell (s : String) : Spelling (spell s) := spelling_escape (Bytes.ofText s)

end DeviceTrust.Json
