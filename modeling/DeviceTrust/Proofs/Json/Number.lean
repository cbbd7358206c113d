import DeviceTrust.Json.Printer
import DeviceTrust.Json.Reader
import DeviceTrust.Proofs.Bytes

/-!
# The grammar of numbers

A number is a whole part without needless zeros, then perhaps a fraction and perhaps an exponent. The
reader takes as many digits as there are, so what it takes off the input is a number of the grammar;
and it takes all of a number, where what follows does not go on with it: not with a digit, a point or
the letter of an exponent.
-/

namespace DeviceTrust.Json

variable {ds : List Nat} {n : Number} {fraction : Option (List Nat)} {exponent : Option (Bool × List Nat)}
  {text input rest : Bytes}

structure DigitsText (text : Bytes) (ds : List Nat) : Prop where
  ne_nil : ds ≠ []
  lt_ten : ∀ d ∈ ds, d < 10
  text_eq : text = printDigits ds

/-- A whole part. Only zero begins with a zero. -/
structure WholeText (text : Bytes) (ds : List Nat) : Prop extends DigitsText text ds where
  zero_alone : ∀ more, ds = 0 :: more → more = []

inductive FractionText : Bytes → Option (List Nat) → Prop where
  | absent : FractionText [] none
  | point {text : Bytes} {ds : List Nat} (h : DigitsText text ds) : FractionText (0x2e :: text) (some ds)

/-- The sign of an exponent, and whether it is a minus. -/
inductive ExponentSign : Bytes → Bool → Prop where
  | unsigned : ExponentSign [] false
  | plus : ExponentSign [0x2b] false
  | minus : ExponentSign [0x2d] true

inductive ExponentText : Bytes → Option (Bool × List Nat) → Prop where
  | absent : ExponentText [] none
  | power {letter : UInt8} {sign text : Bytes} {minus : Bool} {ds : List Nat} (hletter : letter = 0x65 ∨ letter = 0x45)
    (hsign : ExponentSign sign minus) (h : DigitsText text ds) :
    ExponentText (letter :: (sign ++ text)) (some (minus, ds))

inductive NumberText : Bytes → Number → Prop where
  | intro {whole fraction exponent : Bytes} {n : Number} (hwhole : WholeText whole n.whole)
    (hfraction : FractionText fraction n.fraction) (hexponent : ExponentText exponent n.exponent) :
    NumberText ((if n.negative then [0x2d] else []) ++ (whole ++ (fraction ++ exponent))) n

def NoDigit (rest : Bytes) : Prop := ∀ b ∈ rest.head?, isDigit b = false

/-- What may follow a number: it does not go on with it. -/
def Delimited (rest : Bytes) : Prop :=
  ∀ b ∈ rest.head?, isDigit b = false ∧ b ≠ 0x2e ∧ b ≠ 0x65 ∧ b ≠ 0x45

theorem delimited_cons {b : UInt8} (h : isDigit b = false ∧ b ≠ 0x2e ∧ b ≠ 0x65 ∧ b ≠ 0x45) :
    Delimited (b :: rest) := by
  rintro _ ⟨rfl⟩
  exact h

theorem Delimited.noDigit (h : Delimited rest) : NoDigit rest := fun b hb => (h b hb).1

theorem isDigit_ofNat {d : Nat} (h : d < 10) : isDigit (UInt8.ofNat (0x30 + d)) = true := by
  have hall : ∀ d < 10, isDigit (UInt8.ofNat (0x30 + d)) = true := by decide
  exact hall d h

theorem readDigits_append (hds : ∀ d ∈ ds, d < 10) (hrest : NoDigit rest) :
    readDigits (printDigits ds ++ rest) = (ds, rest) := by
  have hvalue : ∀ d < 10, (UInt8.ofNat (0x30 + d)).toNat - 0x30 = d := by decide
  have hdigits : ∀ b ∈ printDigits ds, isDigit b = true := by
    intro b hb
    obtain ⟨d, hd, rfl⟩ := List.mem_map.mp hb
    exact isDigit_ofNat (hds d hd)
  have hstop : rest.takeWhile isDigit = [] ∧ rest.dropWhile isDigit = rest := by
    cases rest with
    | nil => exact ⟨rfl, rfl⟩
    | cons b rest =>
      have hb := hrest b rfl
      simp [hb]
  have hback : (printDigits ds).map (fun b => b.toNat - 0x30) = ds := by
    rw [printDigits, List.map_map]
    exact (List.map_congr_left fun d hd => hvalue d (hds d hd)).trans (List.map_id ds)
  rw [readDigits, List.takeWhile_append_of_pos hdigits, List.dropWhile_append_of_pos hdigits, hstop.1, hstop.2,
    List.append_nil, hback]

theorem of_readDigits (h : readDigits input = (ds, rest)) : (∀ d ∈ ds, d < 10) ∧ input = printDigits ds ++ rest := by
  have hback : ∀ b : UInt8, isDigit b = true → b.toNat - 0x30 < 10 ∧ UInt8.ofNat (0x30 + (b.toNat - 0x30)) = b := by
    intro b hb
    simp only [isDigit, Bool.and_eq_true, decide_eq_true_eq, UInt8.le_iff_toNat_le] at hb
    have hlow : 0x30 ≤ b.toNat := hb.1
    have hhigh : b.toNat ≤ 0x39 := hb.2
    refine ⟨by omega, ?_⟩
    rw [Nat.add_sub_cancel' hlow, UInt8.ofNat_toNat]
  have hdigit : ∀ b ∈ input.takeWhile isDigit, isDigit b = true := fun b hb =>
    List.all_eq_true.mp List.all_takeWhile b hb
  obtain ⟨rfl, rfl⟩ := Prod.mk.inj h
  constructor
  · intro d hd
    obtain ⟨b, hb, rfl⟩ := List.mem_map.mp hd
    exact (hback b (hdigit b hb)).1
  · have hsame : printDigits ((input.takeWhile isDigit).map fun b => b.toNat - 0x30) = input.takeWhile isDigit := by
      rw [printDigits, List.map_map]
      exact (List.map_congr_left fun b hb => (hback b (hdigit b hb)).2).trans (List.map_id _)
    rw [hsame, List.takeWhile_append_dropWhile]

theorem DigitsText.read (h : DigitsText text ds) (hrest : NoDigit rest) : readDigits (text ++ rest) = (ds, rest) := by
  rw [h.text_eq]
  exact readDigits_append h.lt_ten hrest

theorem digitsText_of_readDigits (h : readDigits input = (ds, rest)) (hne : ds ≠ []) :
    ∃ text, DigitsText text ds ∧ input = text ++ rest := by
  obtain ⟨hten, hinput⟩ := of_readDigits h
  exact ⟨_, ⟨hne, hten, rfl⟩, hinput⟩

theorem DigitsText.head (h : DigitsText text ds) : ∃ b more, text = b :: more ∧ isDigit b = true := by
  obtain ⟨hne, hten, rfl⟩ := h
  obtain ⟨d, more, rfl⟩ := List.exists_cons_of_ne_nil hne
  exact ⟨_, _, rfl, isDigit_ofNat (hten d List.mem_cons_self)⟩

theorem WholeText.read (h : WholeText text ds) (hrest : NoDigit rest) : readWhole (text ++ rest) = some (ds, rest) := by
  rw [readWhole, h.toDigitsText.read hrest]
  split
  · rename_i hnil
    exact absurd (Prod.mk.inj hnil).1 h.ne_nil
  · rename_i hzero
    rw [(Prod.mk.inj hzero).1, (Prod.mk.inj hzero).2]
  · rename_i hzero
    cases h.zero_alone _ (Prod.mk.inj hzero).1
  · rename_i hread
    rw [(Prod.mk.inj hread).1, (Prod.mk.inj hread).2]

theorem wholeText_of_readWhole (h : readWhole input = some (ds, rest)) :
    ∃ text, WholeText text ds ∧ input = text ++ rest := by
  rw [readWhole] at h
  split at h
  · cases h
  · rename_i hread
    cases h
    obtain ⟨text, htext, hinput⟩ := digitsText_of_readDigits hread (List.cons_ne_nil _ _)
    exact ⟨text, ⟨htext, fun more hmore => (List.cons.inj hmore).2.symm⟩, hinput⟩
  · cases h
  · rename_i hnil hzero hmore hread
    cases h
    obtain ⟨text, htext, hinput⟩ := digitsText_of_readDigits hread hnil
    refine ⟨text, ⟨htext, fun more hds => ?_⟩, hinput⟩
    cases more with
    | nil => rfl
    | cons d more => exact absurd hds (hmore d more)

theorem FractionText.read (h : FractionText text fraction) (hrest : NoDigit rest) (hpoint : 0x2e ∉ rest.head?) :
    readFraction (text ++ rest) = some (fraction, rest) := by
  cases h with
  | absent =>
    unfold readFraction
    split
    · rename_i hcons
      exact absurd (by rw [← List.nil_append rest, hcons]; rfl) hpoint
    · rfl
  | point h =>
    have hread := h.read hrest
    obtain ⟨d, more, rfl⟩ := List.exists_cons_of_ne_nil h.ne_nil
    simp only [List.cons_append, readFraction, hread]

theorem fractionText_of_readFraction (h : readFraction input = some (fraction, rest)) :
    ∃ text, FractionText text fraction ∧ input = text ++ rest := by
  unfold readFraction at h
  split at h
  · split at h
    · cases h
    · rename_i hnil hread
      cases h
      obtain ⟨text, htext, rfl⟩ := digitsText_of_readDigits hread hnil
      exact ⟨_, .point htext, rfl⟩
  · cases h
    exact ⟨[], .absent, rfl⟩

theorem readExponent_of_delimited (hrest : Delimited rest) : readExponent rest = some (none, rest) := by
  unfold readExponent
  split
  · rfl
  · rename_i b rest
    exact if_neg fun h => h.elim (hrest b rfl).2.2.1 (hrest b rfl).2.2.2

def takeSign : Bytes → Bool × Bytes
  | 0x2d :: rest => (true, rest)
  | 0x2b :: rest => (false, rest)
  | rest => (false, rest)

theorem readExponent_cons {letter : UInt8} (hletter : letter = 0x65 ∨ letter = 0x45) (after : Bytes) :
    readExponent (letter :: after) = match readDigits (takeSign after).2 with
      | ([], _) => none
      | (ds, left) => some (some ((takeSign after).1, ds), left) := by
  unfold readExponent
  simp only [if_pos hletter]
  rfl

theorem ExponentSign.take {sign : Bytes} {minus : Bool} (h : ExponentSign sign minus) (htext : DigitsText text ds) :
    takeSign (sign ++ (text ++ rest)) = (minus, text ++ rest) := by
  cases h with
  | unsigned =>
    obtain ⟨b, more, rfl, hdigit⟩ := htext.head
    rw [List.nil_append, List.cons_append]
    unfold takeSign
    split
    · rename_i hcons
      obtain ⟨rfl, -⟩ := List.cons.inj hcons
      cases hdigit
    · rename_i hcons
      obtain ⟨rfl, -⟩ := List.cons.inj hcons
      cases hdigit
    · rfl
  | plus => rfl
  | minus => rfl

theorem exponentSign_takeSign (input : Bytes) :
    ∃ sign, ExponentSign sign (takeSign input).1 ∧ input = sign ++ (takeSign input).2 := by
  unfold takeSign
  split
  · exact ⟨_, .minus, rfl⟩
  · exact ⟨_, .plus, rfl⟩
  · exact ⟨[], .unsigned, rfl⟩

theorem ExponentText.read (h : ExponentText text exponent) (hrest : Delimited rest) :
    readExponent (text ++ rest) = some (exponent, rest) := by
  cases h with
  | absent => exact readExponent_of_delimited hrest
  | power hletter hsign h =>
    rw [List.cons_append, List.append_assoc, readExponent_cons hletter, hsign.take h]
    have hread := h.read hrest.noDigit
    obtain ⟨d, more, rfl⟩ := List.exists_cons_of_ne_nil h.ne_nil
    simp only [hread]

theorem exponentText_of_readExponent (h : readExponent input = some (exponent, rest)) :
    ∃ text, ExponentText text exponent ∧ input = text ++ rest := by
  by_cases hinput : ∃ letter after, input = letter :: after ∧ (letter = 0x65 ∨ letter = 0x45)
  · obtain ⟨letter, after, rfl, hletter⟩ := hinput
    rw [readExponent_cons hletter] at h
    split at h
    · cases h
    · rename_i hnil hread
      cases h
      obtain ⟨sign, hsign, hafter⟩ := exponentSign_takeSign after
      obtain ⟨text, htext, hrest⟩ := digitsText_of_readDigits hread hnil
      rw [hrest, ← List.append_assoc] at hafter
      exact ⟨_, .power hletter hsign htext, by rw [hafter]; rfl⟩
  · unfold readExponent at h
    split at h
    · cases h
      exact ⟨[], .absent, rfl⟩
    · rename_i letter after
      rw [if_neg fun hletter => hinput ⟨letter, after, rfl, hletter⟩] at h
      cases h
      exact ⟨[], .absent, rfl⟩

theorem ExponentText.follows (h : ExponentText text exponent) (hrest : Delimited rest) :
    NoDigit (text ++ rest) ∧ 0x2e ∉ (text ++ rest).head? := by
  cases h with
  | absent => exact ⟨hrest.noDigit, fun h => (hrest 0x2e h).2.1 rfl⟩
  | power hletter =>
    rcases hletter with rfl | rfl
    all_goals
      refine ⟨?_, by simp⟩
      rintro _ ⟨rfl⟩
      rfl

theorem FractionText.follows (h : FractionText text fraction) (hrest : NoDigit rest) : NoDigit (text ++ rest) := by
  cases h with
  | absent => exact hrest
  | point _ =>
    rintro _ ⟨rfl⟩
    rfl

theorem NumberText.head (h : NumberText text n) : ∃ b more, text = b :: more ∧ (b = 0x2d ∨ isDigit b = true) := by
  obtain ⟨hwhole, -, -⟩ := h
  split
  · exact ⟨_, _, rfl, .inl rfl⟩
  · obtain ⟨b, more, rfl, hdigit⟩ := hwhole.toDigitsText.head
    exact ⟨b, _, rfl, .inr hdigit⟩

theorem begins_number {b : UInt8} (h : b = 0x2d ∨ isDigit b = true) :
    isBlank b = false ∧ b ≠ 0x5d ∧ b ≠ 0x22 ∧ b ≠ 0x7b ∧ b ≠ 0x5b ∧ b ≠ 0x6e ∧ b ≠ 0x74 ∧ b ≠ 0x66 := by
  have hall : ∀ b : UInt8, b = 0x2d ∨ isDigit b = true → isBlank b = false ∧ b ≠ 0x5d ∧ b ≠ 0x22 ∧ b ≠ 0x7b ∧
      b ≠ 0x5b ∧ b ≠ 0x6e ∧ b ≠ 0x74 ∧ b ≠ 0x66 := Bytes.forall_byte (by decide +kernel)
  exact hall b h

def takeMinus : Bytes → Bool × Bytes
  | 0x2d :: rest => (true, rest)
  | rest => (false, rest)

theorem takeMinus_append (negative : Bool) {text : Bytes} (h : WholeText text ds) :
    takeMinus ((if negative then [0x2d] else []) ++ (text ++ rest)) = (negative, text ++ rest) := by
  cases negative with
  | true => rfl
  | false =>
    obtain ⟨b, more, rfl, hdigit⟩ := h.toDigitsText.head
    change takeMinus (b :: (more ++ rest)) = _
    unfold takeMinus
    split
    · rename_i hcons
      obtain ⟨rfl, -⟩ := List.cons.inj hcons
      cases hdigit
    · rfl

theorem eq_takeMinus (input : Bytes) :
    input = (if (takeMinus input).1 then [0x2d] else []) ++ (takeMinus input).2 := by
  unfold takeMinus
  split <;> rfl

theorem readNumber_eq_some_iff : readNumber input = some (n, rest) ↔ (takeMinus input).1 = n.negative ∧
    ∃ rest₁ rest₂, readWhole (takeMinus input).2 = some (n.whole, rest₁) ∧
      readFraction rest₁ = some (n.fraction, rest₂) ∧ readExponent rest₂ = some (n.exponent, rest) := by
  have hread : readNumber input = (readWhole (takeMinus input).2).bind fun w => (readFraction w.2).bind fun f =>
      (readExponent f.2).bind fun e => some (⟨(takeMinus input).1, w.1, f.1, e.1⟩, e.2) := by
    rfl
  rw [hread]
  constructor
  · intro h
    obtain ⟨⟨whole, rest₁⟩, hwhole, h⟩ := Option.bind_eq_some_iff.mp h
    obtain ⟨⟨fraction, rest₂⟩, hfraction, h⟩ := Option.bind_eq_some_iff.mp h
    obtain ⟨⟨exponent, rest₃⟩, hexponent, h⟩ := Option.bind_eq_some_iff.mp h
    cases h
    exact ⟨rfl, rest₁, rest₂, hwhole, hfraction, hexponent⟩
  · rintro ⟨hnegative, rest₁, rest₂, hwhole, hfraction, hexponent⟩
    simp only [hwhole, hfraction, hexponent, hnegative, Option.bind_some]

/-- **A number of the grammar is read whole**, where what follows does not go on with it. -/
theorem NumberText.read (h : NumberText text n) (hrest : Delimited rest) :
    readNumber (text ++ rest) = some (n, rest) := by
  obtain ⟨hwhole, hfraction, hexponent⟩ := h
  obtain ⟨hdigit, hpoint⟩ := hexponent.follows hrest
  simp only [List.append_assoc]
  rw [readNumber_eq_some_iff, takeMinus_append n.negative hwhole]
  exact ⟨rfl, _, _, hwhole.read (hfraction.follows hdigit), hfraction.read hdigit hpoint, hexponent.read hrest⟩

/-- **What is read as a number is one** of the grammar. -/
theorem numberText_of_readNumber (h : readNumber input = some (n, rest)) :
    ∃ text, NumberText text n ∧ input = text ++ rest := by
  obtain ⟨hnegative, rest₁, rest₂, hreadWhole, hreadFraction, hreadExponent⟩ := readNumber_eq_some_iff.mp h
  obtain ⟨whole, hwhole, hinput⟩ := wholeText_of_readWhole hreadWhole
  obtain ⟨fraction, hfraction, rfl⟩ := fractionText_of_readFraction hreadFraction
  obtain ⟨exponent, hexponent, rfl⟩ := exponentText_of_readExponent hreadExponent
  refine ⟨_, .intro hwhole hfraction hexponent, ?_⟩
  rw [eq_takeMinus input, hinput, hnegative]
  simp only [List.append_assoc]

end DeviceTrust.Json
