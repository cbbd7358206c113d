import DeviceTrust.Proofs.Sealing.RoundTrip
import Mathlib.Data.List.Infix

/-!
# Secrets that end in padding

Other programs seal plaintexts that this library refuses. Unpadding then takes bytes of the plaintext along,
or even bytes of the digest, and what is left is no frame. The frame is found again by its digest: as long
as no other part of the padded plaintext has that digest, the only frame among the longer texts is the
whole one, and its last byte is the one that was taken. When the digest itself is cut short there
is nothing to go by.
-/

namespace DeviceTrust.Sealing

variable {k : Key} {iv plain a b : Bytes} {e : Nat}

theorem length_unpad_lt (h : EndsInPadding b) : (unpad b).length < b.length := by
  obtain ⟨t, ht, -⟩ := (strips_unpad b).tail
  have hne : t ≠ [] := by
    rintro rfl
    rw [List.append_nil] at ht
    exact unpad_eq_self_iff.mp ht.symm h
  have hlen := congrArg List.length ht
  rw [List.length_append] at hlen
  have hpos := List.length_pos_iff.mpr hne
  omega

/-- A byte that is no padding stops unpadding, so nothing before the text it stands in is touched. -/
theorem unpad_append_of_kept (a : Bytes) (h : ∃ x ∈ b, isPadding x = false) : unpad (a ++ b) = a ++ unpad b := by
  obtain ⟨t, ht, hall⟩ := (strips_unpad b).tail
  have hne : unpad b ≠ [] := by
    intro hnil
    rw [hnil, List.nil_append] at ht
    obtain ⟨x, hx, hkept⟩ := h
    rw [hall x (ht ▸ hx)] at hkept
    cases hkept
  refine (strips_iff.mp ⟨⟨t, ?_, hall⟩, ?_⟩).symm
  · rw [List.append_assoc, ← ht]
  · rw [endsInPadding_append a hne]
    exact (strips_unpad b).stops

def paddedPlain (iv plain : Bytes) : Bytes := plain ++ filler (padLength (frame iv plain).length)

theorem pad_frame (iv plain : Bytes) : pad (frame iv plain) = digest iv plain ++ paddedPlain iv plain :=
  List.append_assoc _ _ _

/-- No other part of the padded plaintext from its start has the digest of the plaintext. -/
def UniqueDigest (iv plain : Bytes) : Prop :=
  ∀ q, q <+: paddedPlain iv plain → digest iv q = digest iv plain → q = plain

instance (iv plain : Bytes) : Decidable (UniqueDigest iv plain) :=
  decidable_of_iff (∀ q ∈ (paddedPlain iv plain).inits, digest iv q = digest iv plain → q = plain)
    (forall_congr' fun q => imp_congr_left (List.mem_inits q _))

theorem isFrame_take_iff (h : UniqueDigest iv plain) (hlow : digestSize ≤ e)
    (hhigh : e ≤ (pad (frame iv plain)).length) :
    IsFrame iv ((pad (frame iv plain)).take e) ↔ e = (frame iv plain).length := by
  have hdigest : (digest iv plain).length = digestSize := length_digest iv plain
  have hplain : ((pad (frame iv plain)).take e).drop digestSize = (paddedPlain iv plain).take (e - digestSize) := by
    rw [List.drop_take, pad_frame, List.drop_left' hdigest]
  have hstart : ((pad (frame iv plain)).take e).take digestSize = digest iv plain := by
    rw [List.take_take, Nat.min_eq_left hlow, pad_frame, List.take_left' hdigest]
  rw [isFrame_iff, hplain, hstart, length_frame]
  rw [pad_frame, List.length_append, hdigest] at hhigh
  constructor
  · intro hfit
    have hlen := congrArg List.length (h _ (List.take_prefix _ _) hfit)
    rw [List.length_take] at hlen
    omega
  · rintro rfl
    rw [Nat.add_sub_cancel_left, paddedPlain, List.take_left]

/-- The byte that unpadding took for padding is found, if the digest was left whole. -/
theorem Unframes.of_lost_tail (hunique : UniqueDigest iv plain) {x : UInt8} (hlast : plain.getLast? = some x)
    (hpad : isPadding x = true) (hkept : digestSize ≤ (unpad (frame iv plain)).length) :
    Unframes iv (pad (frame iv plain)) (.error (.ambiguousTail x)) := by
  have hne : plain ≠ [] := by
    rintro rfl
    cases hlast
  have hends : EndsInPadding (frame iv plain) := (endsInPadding_frame iv hne).mpr ⟨x, hlast, hpad⟩
  have hshort : (unpad (frame iv plain)).length < (frame iv plain).length := length_unpad_lt hends
  have hfits : (frame iv plain).length ≤ (pad (frame iv plain)).length := by
    rw [pad, List.length_append]
    exact Nat.le_add_right _ _
  have hwhole : (pad (frame iv plain)).take (frame iv plain).length = frame iv plain := List.take_left
  have hr : Strips (pad (frame iv plain)) (unpad (frame iv plain)) := strips_iff.mpr (unpad_pad _).symm
  obtain ⟨t, ht, -⟩ := hr.tail
  have htake : unpad (frame iv plain) = (pad (frame iv plain)).take (unpad (frame iv plain)).length := by
    rw [ht, List.take_left]
  refine .ambiguous hr hkept ?_ ⟨hshort, hfits, ⟨plain, hwhole⟩, ?_⟩ ?_
  · intro hframe
    rw [htake, isFrame_take_iff hunique hkept (by omega)] at hframe
    omega
  · intro d hlow hhigh hframe
    rw [isFrame_take_iff hunique (by omega) (by omega)] at hframe
    omega
  · rw [hwhole, frame, List.getLast?_append_of_ne_nil _ hne, hlast]

/-- What is said of a sealed plaintext, in terms of the plaintext and its digest. -/
inductive Diagnosis (iv plain : Bytes) : Except Error Bytes → Prop where
  /-- Nothing but padding is taken. -/
  | intact (hends : ¬ EndsInPadding (frame iv plain)) : Diagnosis iv plain (.ok plain)
  /-- Bytes of the plaintext are taken, and the digest is left whole. -/
  | lost {x : UInt8} (hlast : plain.getLast? = some x) (hpad : isPadding x = true)
    (hstop : (∃ y ∈ plain, isPadding y = false) ∨ ¬ EndsInPadding (digest iv plain)) :
    Diagnosis iv plain (.error (.ambiguousTail x))
  /-- The whole plaintext is taken, and bytes of the digest with it. -/
  | swallowed (hall : ∀ y ∈ plain, isPadding y = true) (hdigest : EndsInPadding (digest iv plain)) :
    Diagnosis iv plain (.error (.residualTooShort (unpad (digest iv plain)).length))

theorem exists_diagnosis (iv plain : Bytes) : ∃ verdict, Diagnosis iv plain verdict := by
  by_cases hends : EndsInPadding (frame iv plain)
  · by_cases hall : ∀ y ∈ plain, isPadding y = true
    · by_cases hdigest : EndsInPadding (digest iv plain)
      · exact ⟨_, .swallowed hall hdigest⟩
      · -- the digest would be the end of the frame if the plaintext were empty
        have hne : plain ≠ [] := by
          rintro rfl
          rw [frame_nil] at hends
          exact hdigest hends
        obtain ⟨x, hlast, hpad⟩ := (endsInPadding_frame iv hne).mp hends
        exact ⟨_, .lost hlast hpad (.inr hdigest)⟩
    · obtain ⟨y, hy, hkept⟩ : ∃ y ∈ plain, isPadding y = false := by simpa using hall
      obtain ⟨x, hlast, hpad⟩ := (endsInPadding_frame iv (List.ne_nil_of_mem hy)).mp hends
      exact ⟨_, .lost hlast hpad (.inl ⟨y, hy, hkept⟩)⟩
  · exact ⟨_, .intact hends⟩

theorem length_unpad_digest_lt (h : EndsInPadding (digest iv plain)) : (unpad (digest iv plain)).length < 20 := by
  have hlt := length_unpad_lt h
  rwa [length_digest] at hlt

theorem Diagnosis.unframes (hunique : UniqueDigest iv plain) {verdict : Except Error Bytes}
    (h : Diagnosis iv plain verdict) : Unframes iv (pad (frame iv plain)) verdict := by
  cases h with
  | intact hends => exact .accepted (strips_iff.mpr (by rw [unpad_pad, unpad_eq_self_iff.mpr hends]))
  | lost hlast hpad hstop =>
    refine .of_lost_tail hunique hlast hpad ?_
    by_cases hall : ∀ y ∈ plain, isPadding y = true
    · rcases hstop with ⟨y, hy, hkept⟩ | hdigest
      · rw [hall y hy] at hkept
        cases hkept
      · rw [frame, unpad_append hall, unpad_eq_self_iff.mpr hdigest, length_digest]
    · have hkept : ∃ y ∈ plain, isPadding y = false := by simpa using hall
      rw [frame, unpad_append_of_kept _ hkept, List.length_append, length_digest]
      exact Nat.le_add_right _ _
  | swallowed hall hdigest =>
    have hr : Strips (pad (frame iv plain)) (unpad (digest iv plain)) := by
      rw [strips_iff, unpad_pad, frame, unpad_append hall]
    exact .short hr (length_unpad_digest_lt hdigest)

theorem openBytes_sealed_eq_iff (hiv : iv.length = ivSize) (hunique : UniqueDigest iv plain)
    {verdict : Except Error Bytes} :
    (Codec.keyed k).openBytes (iv ++ k.ciphertext iv plain) = verdict ↔ Diagnosis iv plain verdict := by
  rw [openBytes_sealed_eq k hiv]
  constructor
  · rintro rfl
    obtain ⟨verdict, h⟩ := exists_diagnosis iv plain
    rwa [(h.unframes hunique).eq_unframe]
  · intro h
    exact (h.unframes hunique).eq_unframe

/-- **A secret with an ambiguous tail is diagnosed and never altered.** Whatever plaintext was sealed under whatever
vector: it is handed out if its frame does not end in padding, reported with its last byte if
unpadding stops within the plaintext or at the digest, and reported as too short if unpadding goes into
the digest. No other plaintext is handed out, and the digest is never found not to fit. -/
theorem ambiguous_tail_diagnosed (k : Key) (hiv : iv.length = 16) (hunique : UniqueDigest iv plain) :
    ∃ s, sealWith k iv plain = .ok s ∧
      (¬ EndsInPadding (frame iv plain) → (Codec.keyed k).openBytes s = .ok plain) ∧
      (∀ x, plain.getLast? = some x → isPadding x = true →
        (∃ y ∈ plain, isPadding y = false) ∨ ¬ EndsInPadding (digest iv plain) →
        (Codec.keyed k).openBytes s = .error (.ambiguousTail x)) ∧
      ((∀ y ∈ plain, isPadding y = true) → EndsInPadding (digest iv plain) →
        ∃ n < 20, (Codec.keyed k).openBytes s = .error (.residualTooShort n)) ∧
      (∀ q, (Codec.keyed k).openBytes s = .ok q → q = plain) ∧
      (Codec.keyed k).openBytes s ≠ .error .digestMismatch := by
  have hopens {verdict : Except Error Bytes} : (Codec.keyed k).openBytes (iv ++ k.ciphertext iv plain) = verdict ↔
      Diagnosis iv plain verdict := openBytes_sealed_eq_iff hiv hunique
  refine ⟨_, sealWith_eq k hiv plain, ?_, ?_, ?_, ?_, ?_⟩
  · intro hends
    exact hopens.mpr (.intact hends)
  · intro x hlast hpad hstop
    exact hopens.mpr (.lost hlast hpad hstop)
  · intro hall hdigest
    exact ⟨_, length_unpad_digest_lt hdigest, hopens.mpr (.swallowed hall hdigest)⟩
  · intro q hq
    cases hopens.mp hq with
    | intact hends => rfl
  · intro hmismatch
    nomatch hopens.mp hmismatch

/-- Under a key of zeros: a secret that ends in NUL, one that is all padding behind a digest that ends in padding
itself, and one that ends in a letter. -/
theorem ambiguous_tail_diagnosed_within_digest :
    UniqueDigest (List.replicate 16 9) [0x61, 0x62, 0x63, 0x00] ∧
    (∃ s, sealWith (Key.generate .aes128 []).1 (List.replicate 16 9) [0x61, 0x62, 0x63, 0x00] = .ok s ∧
      (Codec.keyed (Key.generate .aes128 []).1).openBytes s = .error (.ambiguousTail 0x00)) ∧
    (∃ s n, n < 20 ∧ sealWith (Key.generate .aes128 []).1 (List.replicate 16 26) [0x80, 0x00] = .ok s ∧
      (Codec.keyed (Key.generate .aes128 []).1).openBytes s = .error (.residualTooShort n)) ∧
    ∃ s, sealWith (Key.generate .aes128 []).1 (List.replicate 16 9) [0x61] = .ok s ∧
      (Codec.keyed (Key.generate .aes128 []).1).openBytes s = .ok [0x61] := by
  have hunique : UniqueDigest (List.replicate 16 9) [0x61, 0x62, 0x63, 0x00] := by decide +kernel
  obtain ⟨s, hs, -, hlost, -⟩ := ambiguous_tail_diagnosed (Key.generate .aes128 []).1 rfl hunique
  have hpadding : UniqueDigest (List.replicate 16 26) [0x80, 0x00] := by decide +kernel
  have hdigest : EndsInPadding (digest (List.replicate 16 26) [0x80, 0x00]) := ⟨0x80, by decide +kernel, rfl⟩
  obtain ⟨s', hs', -, -, hswallowed, -⟩ := ambiguous_tail_diagnosed (Key.generate .aes128 []).1 rfl hpadding
  have hletter : UniqueDigest (List.replicate 16 9) [0x61] := by decide +kernel
  obtain ⟨s'', hs'', hintact, -⟩ := ambiguous_tail_diagnosed (Key.generate .aes128 []).1 rfl hletter
  refine ⟨hunique, ⟨s, hs, ?_⟩, ?_, s'', hs'', ?_⟩
  · exact hlost 0x00 rfl rfl (.inl ⟨0x61, List.mem_cons_self, rfl⟩)
  · obtain ⟨n, hn, hshort⟩ := hswallowed (List.all_eq_true.mp rfl) hdigest
    exact ⟨s', n, hn, hs', hshort⟩
  · exact hintact (not_endsInPadding_frame _ rfl rfl)

end DeviceTrust.Sealing
