import DeviceTrust.Proofs.Base64.Canonical
import DeviceTrust.Proofs.Sealing.RoundTrip

/-!
# Texts that are sealed

A text is sealed as its bytes, so it is refused when its last byte is one that unpadding drops. That byte
belongs to the last character: a character of ASCII is its own byte, and any other ends in a byte made of
its six lowest bits. What is not refused is handed out in base64, which no blanks around it can hurt.
Without a key the base64 of the text is all there is to it, and every text has exactly one.
-/

namespace DeviceTrust.Sealing

variable {k : Key} {text : String} {plain : Bytes} {source : RandomSource} {n : Nat}

/-- A character whose last byte unpadding would drop: NUL, and from 128 on every sixty-fourth. -/
def Lost (c : Char) : Prop := c.toNat = 0 ∨ 128 ≤ c.toNat ∧ c.toNat % 64 = 0

def EndsLost (text : String) : Prop := ∃ c ∈ text.toList.getLast?, Lost c

theorem isPadding_ofNat_iff (hn : n < 256) : isPadding (UInt8.ofNat n) = true ↔ n = 0 ∨ n = 128 := by
  have hall : ∀ n < 256, isPadding (UInt8.ofNat n) = true ↔ n = 0 ∨ n = 128 := by decide +kernel
  exact hall n hn

/-- The last byte of a character is the character itself or its six lowest bits under the mark of a continuation. -/
theorem getLast?_utf8EncodeChar (c : Char) : (String.utf8EncodeChar c).getLast? =
    some (UInt8.ofNat (if c.toNat < 128 then c.toNat else c.toNat % 64 + 128)) := by
  change (String.utf8EncodeChar c).getLast? =
    some (UInt8.ofNat (if c.val.toNat < 128 then c.val.toNat else c.val.toNat % 64 + 128))
  rw [String.utf8EncodeChar]
  by_cases hascii : c.val.toNat ≤ 127
  · simp only [if_pos hascii, if_pos (show c.val.toNat < 128 by omega)]
    rfl
  · simp only [if_neg hascii, if_neg (show ¬ c.val.toNat < 128 by omega)]
    split
    · rfl
    · split <;> rfl

theorem endsInPadding_utf8EncodeChar (c : Char) : EndsInPadding (String.utf8EncodeChar c) ↔ Lost c := by
  rw [EndsInPadding, getLast?_utf8EncodeChar]
  simp only [Option.mem_some_iff, exists_eq_left']
  rw [isPadding_ofNat_iff (by split <;> omega), Lost]
  split <;> omega

/-- **The last byte of a text is lost exactly with its last character.** -/
theorem endsInPadding_ofText (text : String) : EndsInPadding (Bytes.ofText text) ↔ EndsLost text := by
  rw [Bytes.ofText_eq, EndsLost]
  rcases List.eq_nil_or_concat text.toList with hnil | ⟨front, c, hlast⟩
  · rw [hnil]
    constructor
    · rintro ⟨_, ⟨⟩, -⟩
    · rintro ⟨_, ⟨⟩, -⟩
  · have hne : String.utf8EncodeChar c ≠ [] := by
      intro hnil
      have hend := getLast?_utf8EncodeChar c
      rw [hnil] at hend
      cases hend
    have hbytes : (front.concat c).flatMap String.utf8EncodeChar =
        front.flatMap String.utf8EncodeChar ++ String.utf8EncodeChar c := by
      rw [List.concat_eq_append, List.flatMap_append, List.flatMap_singleton]
    rw [hlast, hbytes, endsInPadding_append _ hne, endsInPadding_utf8EncodeChar, List.concat_eq_append,
      List.getLast?_concat]
    simp

theorem openBytes_of_sealBytes {plain out : Bytes} {source : RandomSource}
    (h : ((Codec.keyed k).sealBytes plain source).1 = .ok out) : (Codec.keyed k).openBytes out = .ok plain := by
  rcases sealBytes_cases k plain source with ⟨b, -, hrefused⟩ | ⟨i, hchosen, hsealed⟩
  · rw [hrefused] at h
    cases h
  · rw [hsealed] at h
    obtain rfl := Except.ok.inj h
    exact openBytes_sealed k (length_nthIv source i) hchosen.not_endsInPadding

/-- Where there is a last byte, that byte alone decides whether sealing refuses. -/
theorem sealBytes_fails_iff (hplain : plain ≠ []) :
    (∃ e, ((Codec.keyed k).sealBytes plain source).1 = .error e) ↔ EndsInPadding plain := by
  rcases sealBytes_cases k plain source with ⟨b, hrefused, hsealed⟩ | ⟨i, hchosen, hsealed⟩
  · rw [hsealed]
    refine ⟨fun _ => ?_, fun _ => ⟨_, rfl⟩⟩
    cases hrefused with
    | tail hlast hpad => exact ⟨b, hlast, hpad⟩
    | digests hnil => exact absurd hnil hplain
  · rw [hsealed]
    have hkept := hchosen.not_endsInPadding
    rw [endsInPadding_frame _ hplain] at hkept
    exact ⟨nofun, fun hlost => absurd hlost hkept⟩

theorem sealText_fst (c : Codec) (text : String) (source : RandomSource) :
    (c.sealText text source).1 = (c.sealBytes (Bytes.ofText text) source).1.map (Base64.encode .standard) := rfl

theorem ofText_ne_nil (h : text ≠ "") : Bytes.ofText text ≠ [] := by
  intro hnil
  have htext := Bytes.text?_ofText text
  rw [hnil] at htext
  exact h (Option.some.inj htext).symm

theorem sealText_fails_iff (htext : text ≠ "") :
    (∃ e, ((Codec.keyed k).sealText text source).1 = .error e) ↔ EndsLost text := by
  rw [← endsInPadding_ofText, ← sealBytes_fails_iff (ofText_ne_nil htext), sealText_fst]
  cases ((Codec.keyed k).sealBytes (Bytes.ofText text) source).1 with
  | error e => exact ⟨fun _ => ⟨e, rfl⟩, fun _ => ⟨e, rfl⟩⟩
  | ok b => exact ⟨nofun, nofun⟩

/-- What is sealed opens again, whatever blanks it has come between. -/
theorem openText_of_sealText_surrounded {before out after : String}
    (h : ((Codec.keyed k).sealText text source).1 = .ok out) (hbefore : ∀ c ∈ before.toList, Text.isBlank c = true)
    (hafter : ∀ c ∈ after.toList, Text.isBlank c = true) :
    (Codec.keyed k).openText (before ++ out ++ after) = .ok text := by
  rw [sealText_fst] at h
  cases hsealed : ((Codec.keyed k).sealBytes (Bytes.ofText text) source).1 with
  | error e =>
    rw [hsealed] at h
    cases h
  | ok sealedBytes =>
    rw [hsealed] at h
    obtain rfl := Except.ok.inj h
    simp only [Codec.openText, Text.trim_surrounded hbefore hafter, Base64.trim_encode, Base64.decode_encode,
      openBytes_of_sealBytes hsealed, Bytes.text?_ofText]

theorem openText_of_sealText {plain out : String} {source : RandomSource}
    (h : ((Codec.keyed k).sealText plain source).1 = .ok out) : (Codec.keyed k).openText out = .ok plain := by
  have hnone : ∀ c ∈ "".toList, Text.isBlank c = true := by simp
  simpa using openText_of_sealText_surrounded h hnone hnone

/-- Without a key a text opens from its base64 and from nothing else. -/
theorem openText_passthrough_eq_ok_iff {x : String} :
    Codec.passthrough.openText x = .ok text ↔ Text.trim x = Base64.encode .standard (Bytes.ofText text) := by
  rw [← Base64.decode_eq_ok_iff, Codec.openText]
  cases hdecode : Base64.decode .standard (Text.trim x) with
  | error e => exact ⟨nofun, nofun⟩
  | ok b =>
    have hopen : Codec.passthrough.openBytes b = .ok b := rfl
    simp only [hopen]
    rw [Except.ok.injEq, ← Bytes.text?_eq_some_iff]
    cases Bytes.text? b with
    | none => exact ⟨nofun, nofun⟩
    | some s => simp

/-- **Sealing a text fails on its last character or not at all.** Under a key a text that is not empty is refused
exactly when its last character is lost, and any other opens again from what was handed out, whatever blanks
are around it. Without a key nothing is refused, and each text opens from exactly one text besides the blanks
around it. -/
theorem text_sealing (k : Key) (source : RandomSource) :
    (∀ text, text ≠ "" → ((∃ e, ((Codec.keyed k).sealText text source).1 = .error e) ↔ EndsLost text) ∧
      (¬ EndsLost text → ∃ out, ((Codec.keyed k).sealText text source).1 = .ok out ∧
        ∀ before after, (∀ c ∈ before.toList, Text.isBlank c = true) → (∀ c ∈ after.toList, Text.isBlank c = true) →
          (Codec.keyed k).openText (before ++ out ++ after) = .ok text)) ∧
    ∀ text, ∃ out, (Codec.passthrough.sealText text source).1 = .ok out ∧
      ∀ x, Codec.passthrough.openText x = .ok text ↔ Text.trim x = out := by
  refine ⟨fun text htext => ⟨sealText_fails_iff htext, fun hkept => ?_⟩, fun text => ?_⟩
  · cases hsealed : ((Codec.keyed k).sealText text source).1 with
    | error e => exact absurd ((sealText_fails_iff htext).mp ⟨e, hsealed⟩) hkept
    | ok out => exact ⟨out, rfl, fun before after => openText_of_sealText_surrounded hsealed⟩
  · exact ⟨_, rfl, fun x => openText_passthrough_eq_ok_iff⟩

/-- The bytes of `À` end in 0x80 and those of `€` do not. -/
theorem grave_refused_euro_sealed :
    (∃ e, ((Codec.keyed (Key.generate .aes128 []).1).sealText "À" []).1 = .error e) ∧
    (∃ out, ((Codec.keyed (Key.generate .aes128 []).1).sealText "€" []).1 = .ok out ∧
      (Codec.keyed (Key.generate .aes128 []).1).openText ("\t" ++ out ++ " \r\n") = .ok "€") ∧
    Codec.passthrough.openText " w4A=\n" = .ok "À" ∧ Codec.passthrough.openText "w4A" ≠ .ok "À" := by
  obtain ⟨hkeyed, hbare⟩ := text_sealing (Key.generate .aes128 []).1 []
  have hlost : EndsLost "À" := ⟨'À', rfl, .inr (by decide)⟩
  have hkept : ¬ EndsLost "€" := by
    rintro ⟨_, ⟨rfl⟩, hzero | hlow⟩
    · exact absurd hzero (by decide)
    · exact absurd hlow (by decide)
  obtain ⟨out, hout, hopens⟩ := (hkeyed "€" (by decide)).2 hkept
  obtain ⟨bare, hwritten, honly⟩ := hbare "À"
  obtain rfl : "w4A=" = bare := Except.ok.inj hwritten
  refine ⟨(hkeyed "À" (by decide)).1.mpr hlost, ⟨out, hout, ?_⟩, (honly _).mpr (by decide), ?_⟩
  · exact hopens "\t" " \r\n" (List.all_eq_true.mp (by decide)) (List.all_eq_true.mp (by decide))
  · rw [Ne, honly]
    decide

end DeviceTrust.Sealing
