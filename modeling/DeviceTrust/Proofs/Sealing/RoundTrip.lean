import DeviceTrust.Proofs.Cipher.Chaining
import DeviceTrust.Proofs.Sealing.Unframing

/-!
# Whatever is sealed can be opened

Sealing refuses a plaintext exactly when its frame would end in a padding byte, because
unpadding could not tell that byte from padding. For a plaintext that is not empty this is
its own last byte; for the empty one it is the last byte of the digest, which depends on
the initialisation vector, so another vector is drawn, sixteen times at most. The source of
vectors is arbitrary: nothing is assumed of its bytes.
-/

namespace DeviceTrust.Sealing

variable {k : Key} {iv plain : Bytes} {source : RandomSource}

theorem Key.run_eq_ok (k : Key) (d : Chaining.Direction) (hiv : iv.length = ivSize) {text : Bytes}
    (htext : text.length % blockSize = 0) : k.run d iv text = .ok (d.apply k.bytes iv text) := by
  rw [Key.run, Chaining.run_eq_ok k.length_bytes hiv htext]
  rfl

theorem length_pad_mod (b : Bytes) : (pad b).length % blockSize = 0 := by
  rw [length_pad, blockSize]
  omega

def Key.ciphertext (k : Key) (iv plain : Bytes) : Bytes :=
  Chaining.encipherBytes k.bytes iv (pad (frame iv plain))

theorem sealWith_eq (k : Key) (hiv : iv.length = ivSize) (plain : Bytes) :
    sealWith k iv plain = .ok (iv ++ k.ciphertext iv plain) := by
  rw [sealWith, k.run_eq_ok .encipher hiv (length_pad_mod _)]
  rfl

/-- The digest takes twenty bytes, and the last block may be filled up. -/
theorem length_ciphertext (k : Key) (iv plain : Bytes) :
    (k.ciphertext iv plain).length = 16 * ((20 + plain.length + 15) / 16) := by
  have h := Chaining.length_apply .encipher k.bytes iv (length_pad_mod (frame iv plain))
  change (k.ciphertext iv plain).length = _ at h
  rw [h, length_pad, length_frame, digestSize]

/-- The deciphered text behind the initialisation vector. -/
def Key.deciphered (k : Key) (s : Bytes) : Bytes :=
  Chaining.decipherBytes k.bytes (s.take ivSize) (s.drop ivSize)

theorem openBytes_whole (k : Key) {s : Bytes} (hlen : ivSize + blockSize ≤ s.length)
    (hwhole : (s.drop ivSize).length % blockSize = 0) :
    (Codec.keyed k).openBytes s = unframe (s.take ivSize) (k.deciphered s) := by
  have hiv : (s.take ivSize).length = ivSize := by rw [List.length_take]; omega
  have hrun := k.run_eq_ok .decipher hiv hwhole
  simp only [Codec.openBytes, Codec.keyed]
  rw [if_neg (by omega), if_neg (by simpa using hwhole), hrun]
  rfl

theorem deciphered_sealed (k : Key) (hiv : iv.length = ivSize) (plain : Bytes) :
    k.deciphered (iv ++ k.ciphertext iv plain) = pad (frame iv plain) := by
  rw [Key.deciphered, List.take_left' hiv, List.drop_left' hiv, Key.ciphertext,
    Chaining.decipherBytes_encipherBytes _ _ (length_pad_mod _)]

/-- Opening what was sealed takes the padding off the frame and looks at what is left. -/
theorem openBytes_sealed_eq (k : Key) (hiv : iv.length = ivSize) (plain : Bytes) :
    (Codec.keyed k).openBytes (iv ++ k.ciphertext iv plain) = unframe iv (pad (frame iv plain)) := by
  have hcipher := length_ciphertext k iv plain
  rw [openBytes_whole k (by rw [List.length_append, hiv, hcipher, blockSize]; omega)
      (by rw [List.drop_left' hiv, hcipher, blockSize]; omega),
    deciphered_sealed k hiv, List.take_left' hiv]

/-- A frame that does not end in a padding byte comes back from under its padding. -/
theorem openBytes_sealed (k : Key) (hiv : iv.length = ivSize) (h : ¬ EndsInPadding (frame iv plain)) :
    (Codec.keyed k).openBytes (iv ++ k.ciphertext iv plain) = .ok plain := by
  rw [openBytes_sealed_eq k hiv, unframe_eq_iff]
  exact .accepted (strips_iff.mpr (by rw [unpad_pad, unpad_eq_self_iff.mpr h]))

/-- The `i`-th initialisation vector that a source gives out. -/
def nthIv (source : RandomSource) (i : Nat) : Bytes :=
  (RandomSource.draw ivSize (source.drop (ivSize * i))).1

theorem length_nthIv (source : RandomSource) (i : Nat) : (nthIv source i).length = ivSize :=
  RandomSource.length_draw _ _

theorem nthIv_succ (source : RandomSource) (i : Nat) : nthIv source (i + 1) = nthIv (source.drop ivSize) i := by
  rw [nthIv, nthIv, List.drop_drop, Nat.mul_succ, Nat.add_comm]

/-- The digest of the empty plaintext under the `i`-th vector ends in a padding byte. -/
def Unusable (source : RandomSource) (i : Nat) : Prop := EndsInPadding (digest (nthIv source i) [])

theorem unusable_succ (source : RandomSource) (i : Nat) :
    Unusable source (i + 1) ↔ Unusable (source.drop ivSize) i := by
  rw [Unusable, Unusable, nthIv_succ]

/-- A digest is not empty, so the default for its last byte is never taken. -/
theorem unusable_zero (source : RandomSource) :
    Unusable source 0 ↔ isPadding ((digest (nthIv source 0) []).getLastD 0) = true := by
  rw [Unusable, EndsInPadding, List.getLastD_eq_getLast?, List.getLast?_eq_some_getLast (digest_ne_nil _ _)]
  simp

/-- The first of `n` vectors that can be used is drawn, or none of them can. -/
theorem drawEmptyIv_cases (n : Nat) (source : RandomSource) :
    ((drawEmptyIv n source).1 = none ∧ ∀ i < n, Unusable source i) ∨
    ∃ i < n, (drawEmptyIv n source).1 = some (nthIv source i) ∧ ¬ Unusable source i ∧
      ∀ j < i, Unusable source j := by
  induction n generalizing source with
  | zero => exact .inl ⟨rfl, fun i hi => absurd hi (Nat.not_lt_zero i)⟩
  | succ n ih =>
    have hzero : nthIv source 0 = (source.draw ivSize).1 := rfl
    by_cases h : Unusable source 0
    · have hstep : drawEmptyIv (n + 1) source = drawEmptyIv n (source.drop ivSize) := by
        have hpad := (unusable_zero source).mp h
        rw [hzero] at hpad
        simp only [drawEmptyIv, hpad, if_true]
        rfl
      rw [hstep]
      rcases ih (source.drop ivSize) with ⟨hnone, hall⟩ | ⟨i, hi, hsome, husable, hfirst⟩
      · refine .inl ⟨hnone, ?_⟩
        intro i hi
        cases i with
        | zero => exact h
        | succ i => exact (unusable_succ source i).mpr (hall i (by omega))
      · refine .inr ⟨i + 1, by omega, by rw [hsome, nthIv_succ], ?_, ?_⟩
        · rwa [unusable_succ]
        · intro j hj
          cases j with
          | zero => exact h
          | succ j => exact (unusable_succ source j).mpr (hfirst j (by omega))
    · refine .inr ⟨0, by omega, ?_, h, fun j hj => absurd hj (Nat.not_lt_zero j)⟩
      have hpad := Bool.eq_false_iff.mpr fun hp => h ((unusable_zero source).mpr hp)
      rw [hzero] at hpad
      simp only [drawEmptyIv, hpad, hzero]
      rfl

/-- The byte for which sealing refuses a plaintext. -/
inductive Refused (plain : Bytes) (source : RandomSource) : UInt8 → Prop where
  | tail {b : UInt8} (hlast : plain.getLast? = some b) (hpad : isPadding b = true) : Refused plain source b
  /-- No digest of the empty plaintext under the first sixteen vectors survives unpadding. -/
  | digests (hplain : plain = []) (hall : ∀ i < 16, Unusable source i) : Refused plain source 0

/-- The vector under which a plaintext is sealed: the first one, unless the digest of the empty plaintext
asks for a later one. -/
inductive Chosen (plain : Bytes) (source : RandomSource) : Nat → Prop where
  | first {b : UInt8} (hlast : plain.getLast? = some b) (hpad : isPadding b = false) : Chosen plain source 0
  | later {i : Nat} (hplain : plain = []) (hi : i < 16) (husable : ¬ Unusable source i)
    (hfirst : ∀ j < i, Unusable source j) : Chosen plain source i

theorem Chosen.not_endsInPadding {i : Nat} (h : Chosen plain source i) :
    ¬ EndsInPadding (frame (nthIv source i) plain) := by
  cases h with
  | first hlast hpad => exact not_endsInPadding_frame _ hlast hpad
  | later hplain hi husable hfirst =>
    rw [hplain, frame_nil]
    exact husable

/-- Sealing refuses a plaintext or seals it under a vector of the source. -/
theorem sealBytes_cases (k : Key) (plain : Bytes) (source : RandomSource) :
    (∃ b, Refused plain source b ∧ ((Codec.keyed k).sealBytes plain source).1 = .error (.ambiguousTail b)) ∨
    ∃ i, Chosen plain source i ∧ ((Codec.keyed k).sealBytes plain source).1 =
      .ok (nthIv source i ++ k.ciphertext (nthIv source i) plain) := by
  cases hlast : plain.getLast? with
  | some b =>
    cases hpad : isPadding b with
    | true => exact .inl ⟨b, .tail hlast hpad, by simp [Codec.sealBytes, Codec.keyed, hlast, hpad]⟩
    | false =>
      refine .inr ⟨0, .first hlast hpad, ?_⟩
      rw [← sealWith_eq k (length_nthIv source 0)]
      simp only [Codec.sealBytes, Codec.keyed, hlast, hpad]
      rfl
  | none =>
    obtain rfl := List.getLast?_eq_none_iff.mp hlast
    rcases drawEmptyIv_cases 16 source with ⟨hnone, hall⟩ | ⟨i, hi, hsome, husable, hfirst⟩
    · refine .inl ⟨0, .digests rfl hall, ?_⟩
      simp only [Codec.sealBytes, Codec.keyed, List.getLast?_nil, emptyAttempts]
      generalize drawEmptyIv 16 source = drawn at hnone
      obtain ⟨_, rest⟩ := drawn
      cases hnone
      rfl
    · refine .inr ⟨i, .later rfl hi husable hfirst, ?_⟩
      rw [← sealWith_eq k (length_nthIv source i)]
      simp only [Codec.sealBytes, Codec.keyed, List.getLast?_nil, emptyAttempts]
      generalize drawEmptyIv 16 source = drawn at hsome
      obtain ⟨_, rest⟩ := drawn
      cases hsome
      rfl

theorem Refused.not_chosen {b : UInt8} {i : Nat} (h : Refused plain source b) : ¬ Chosen plain source i := by
  intro hi
  cases h with
  | tail hlast hpad =>
    cases hi with
    | first hlast' hpad' =>
      obtain rfl := Option.some.inj (hlast.symm.trans hlast')
      rw [hpad] at hpad'
      cases hpad'
    | later hplain => simp [hplain] at hlast
  | digests hplain hall =>
    cases hi with
    | first hlast' => simp [hplain] at hlast'
    | later _ hi husable => exact husable (hall i hi)

theorem Refused.unique {b c : UInt8} (hb : Refused plain source b) (hc : Refused plain source c) : b = c := by
  cases hb with
  | tail hlast =>
    cases hc with
    | tail hlast' => exact Option.some.inj (hlast.symm.trans hlast')
    | digests hplain => simp [hplain] at hlast
  | digests hplain =>
    cases hc with
    | tail hlast' => simp [hplain] at hlast'
    | digests => rfl

/-- **Sealing fails only for an ambiguous tail, and what it seals opens again.** It fails exactly for a
refused plaintext; otherwise it gives out the chosen vector and whole blocks that open to the
plaintext. Without a key both directions are the identity. -/
theorem sealing_round_trip (k : Key) (plain : Bytes) (source : RandomSource) :
    (∀ e, ((Codec.keyed k).sealBytes plain source).1 = .error e ↔
      ∃ b, Refused plain source b ∧ e = .ambiguousTail b) ∧
    ((∃ b, Refused plain source b) ∨ ∃ i out, Chosen plain source i ∧
      ((Codec.keyed k).sealBytes plain source).1 = .ok out ∧
      out.take 16 = nthIv source i ∧ out.length = 16 + 16 * ((20 + plain.length + 15) / 16) ∧
      (Codec.keyed k).openBytes out = .ok plain) ∧
    (Codec.passthrough.sealBytes plain source).1 = .ok plain ∧
    Codec.passthrough.openBytes plain = .ok plain := by
  refine ⟨?_, ?_, rfl, rfl⟩
  · intro e
    constructor
    · intro h
      rcases sealBytes_cases k plain source with ⟨b, hb, hsealed⟩ | ⟨i, -, hsealed⟩
      · exact ⟨b, hb, Except.error.inj (h.symm.trans hsealed)⟩
      · rw [hsealed] at h
        cases h
    · rintro ⟨b, hb, rfl⟩
      rcases sealBytes_cases k plain source with ⟨c, hc, hsealed⟩ | ⟨i, hi, -⟩
      · rw [hsealed, hb.unique hc]
      · exact absurd hi hb.not_chosen
  · rcases sealBytes_cases k plain source with ⟨b, hb, -⟩ | ⟨i, hi, hsealed⟩
    · exact .inl ⟨b, hb⟩
    · have hiv := length_nthIv source i
      refine .inr ⟨i, _, hi, hsealed, List.take_left' hiv, ?_, openBytes_sealed k hiv hi.not_endsInPadding⟩
      rw [List.length_append, hiv, length_ciphertext, ivSize]

end DeviceTrust.Sealing
