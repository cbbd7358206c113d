import DeviceTrust.Proofs.Cipher.Vector
import DeviceTrust.Proofs.Sealing.Opening

/-!
# A sealed text whose vector was changed

The first block of a deciphered text lies within the digest, and so does all that another vector can change.
The plaintext stays what it was, and so does the place where unpadding stops: what is left is the
old plaintext behind a digest with some bits flipped. It is accepted when this is the
digest of the same plaintext under the other vector.
-/

namespace DeviceTrust.Sealing

open Bytes (masked)

variable {k : Key} {s s' plain mask b kept : Bytes}

theorem endsInPadding_masked (h : mask.length < b.length) : EndsInPadding (masked mask b) ↔ EndsInPadding b := by
  have hne : b.drop mask.length ≠ [] := by
    rw [← List.length_pos_iff, List.length_drop]
    omega
  have hwhole := endsInPadding_append (b.take mask.length) hne
  rw [List.take_append_drop] at hwhole
  rw [masked, endsInPadding_append _ hne, hwhole]

/-- Unpadding stops where it stopped before, if the mask ends before that place. -/
theorem Strips.masked (h : Strips b kept) (hmask : mask.length < kept.length) :
    Strips (Bytes.masked mask b) (Bytes.masked mask kept) := by
  obtain ⟨⟨t, rfl, ht⟩, hstops⟩ := h
  refine ⟨⟨t, Bytes.masked_append (Nat.le_of_lt hmask) t, ht⟩, ?_⟩
  rwa [endsInPadding_masked hmask]

/-- A frame under a mask that lies within its digest is a frame just when the masked digest is the right one, and of
no other plaintext. -/
theorem masked_frame_eq_iff {iv iv' q : Bytes} (hmask : mask.length ≤ digestSize) :
    masked mask (frame iv plain) = frame iv' q ↔ q = plain ∧ digest iv' plain = masked mask (digest iv plain) := by
  have hdigest : mask.length ≤ (digest iv plain).length := by rwa [length_digest]
  have hlen : (masked mask (digest iv plain)).length = (digest iv' q).length := by
    rw [Bytes.length_masked hdigest, length_digest, length_digest]
  rw [frame, frame, Bytes.masked_append hdigest]
  constructor
  · intro h
    obtain ⟨hleft, rfl⟩ := List.append_inj h hlen
    exact ⟨rfl, hleft.symm⟩
  · rintro ⟨rfl, h⟩
    rw [h]

theorem length_mask (hs : 32 ≤ s.length) (hlength : s'.length = s.length) :
    (Bytes.xor (s.take 16) (s'.take 16)).length = 16 := by
  rw [Bytes.xor, List.length_zipWith, List.length_take, List.length_take]
  omega

theorem deciphered_tampered (k : Key) (hs : 32 ≤ s.length) (hlength : s'.length = s.length)
    (hrest : s'.drop 16 = s.drop 16) :
    k.deciphered s' = masked (Bytes.xor (s.take 16) (s'.take 16)) (k.deciphered s) := by
  have hiv : (s.take 16).length = 16 := by rw [List.length_take]; omega
  have hiv' : (s'.take 16).length = 16 := by rw [List.length_take]; omega
  have hne : s.drop 16 ≠ [] := by
    rw [← List.length_pos_iff, List.length_drop]
    omega
  rw [Key.deciphered, Key.deciphered, ivSize, hrest]
  exact Chaining.decipherBytes_vector k.bytes hiv hiv' hne

/-- What is left of the changed text is the frame that was left before, with the bits of its digest flipped. -/
theorem strips_tampered (hs : 32 ≤ s.length) (hlength : s'.length = s.length) (hrest : s'.drop 16 = s.drop 16)
    (hstrips : Strips (k.deciphered s) (frame (s.take 16) plain)) :
    Strips (k.deciphered s') (masked (Bytes.xor (s.take 16) (s'.take 16)) (frame (s.take 16) plain)) := by
  rw [deciphered_tampered k hs hlength hrest]
  refine hstrips.masked ?_
  rw [length_frame, digestSize, length_mask hs hlength]
  omega

/-- **Whoever changes the vector of a sealed text never changes the plaintext.** The text is refused for its digest or
for an ambiguous tail, or still opens to what it opened to. It does so exactly when the digest of the plaintext
under the new vector is the old digest with the bits flipped in which the vectors differ. -/
theorem tampered_vector_never_alters (k : Key) (hopen : (Codec.keyed k).openBytes s = .ok plain)
    (hlength : s'.length = s.length) (hrest : s'.drop 16 = s.drop 16) :
    ((Codec.keyed k).openBytes s' = .ok plain ∨ (Codec.keyed k).openBytes s' = .error .digestMismatch ∨
      ∃ x, (Codec.keyed k).openBytes s' = .error (.ambiguousTail x)) ∧
    ((Codec.keyed k).openBytes s' = .ok plain ↔
      digest (s'.take 16) plain = masked (Bytes.xor (s.take 16) (s'.take 16)) (digest (s.take 16) plain)) := by
  obtain ⟨⟨hlong, hblocks⟩, hstrips⟩ := openBytes_eq_ok_iff.mp hopen
  have hwhole : Whole s' := ⟨by omega, by omega⟩
  have hmask : (Bytes.xor (s.take 16) (s'.take 16)).length ≤ digestSize := by
    rw [length_mask hlong hlength, digestSize]
    decide
  have hleft := strips_iff.mp (strips_tampered hlong hlength hrest hstrips)
  have hkept : digestSize ≤ (unpad (k.deciphered s')).length := by
    rw [← hleft, Bytes.length_masked (by rw [length_frame]; omega), length_frame]
    exact Nat.le_add_right _ _
  constructor
  · -- the length is what it was, enough is left for a digest, and a frame under the mask carries the same plaintext
    obtain ⟨verdict, h⟩ := exists_opens k s'
    rw [h.eq_openBytes]
    cases h with
    | tooShort hlen => omega
    | notBlockAligned hlen hpart => omega
    | whole _ hbody =>
      cases hbody with
      | short hr hlen =>
        rw [strips_iff.mp hr] at hlen
        omega
      | accepted hr =>
        rw [strips_iff, ← hleft, eq_comm, masked_frame_eq_iff hmask] at hr
        obtain ⟨rfl, -⟩ := hr
        exact .inl rfl
      | ambiguous hr hlen hno he hb => exact .inr (.inr ⟨_, rfl⟩)
      | mismatch hr hlen hno hnone => exact .inr (.inl rfl)
  · rw [openBytes_eq_ok_iff, and_iff_right hwhole, strips_iff, ← hleft, eq_comm, masked_frame_eq_iff hmask,
      and_iff_right rfl]

/-- A letter sealed under a key of zeros is refused once a single bit of its vector is flipped. -/
theorem tampered_vector_refused :
    ∃ c, (Codec.keyed (Key.generate .aes128 []).1).openBytes (List.replicate 16 9 ++ c) = .ok [0x61] ∧
      ((Codec.keyed (Key.generate .aes128 []).1).openBytes (8 :: List.replicate 15 9 ++ c) = .error .digestMismatch ∨
        ∃ x, (Codec.keyed (Key.generate .aes128 []).1).openBytes (8 :: List.replicate 15 9 ++ c) =
          .error (.ambiguousTail x)) := by
  have hends : ¬ EndsInPadding (frame (List.replicate 16 9) [0x61]) := not_endsInPadding_frame _ rfl rfl
  have hopen := openBytes_sealed (Key.generate .aes128 []).1 rfl hends
  generalize (Key.generate .aes128 []).1.ciphertext (List.replicate 16 9) [0x61] = c at hopen
  have hlength : (8 :: List.replicate 15 9 ++ c).length = (List.replicate 16 9 ++ c).length := rfl
  have hrest : (8 :: List.replicate 15 9 ++ c).drop 16 = (List.replicate 16 9 ++ c).drop 16 := rfl
  have hdigest : digest (8 :: List.replicate 15 9) [0x61] ≠
      masked (Bytes.xor (List.replicate 16 9) (8 :: List.replicate 15 9)) (digest (List.replicate 16 9) [0x61]) := by
    decide +kernel
  obtain ⟨hverdict, hsame⟩ := tampered_vector_never_alters (Key.generate .aes128 []).1 hopen hlength hrest
  refine ⟨c, hopen, hverdict.resolve_left fun hok => hdigest ?_⟩
  exact hsame.mp hok

end DeviceTrust.Sealing
