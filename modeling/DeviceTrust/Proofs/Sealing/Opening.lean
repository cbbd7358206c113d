import DeviceTrust.Proofs.Sealing.Ranges
import DeviceTrust.Proofs.Sealing.RoundTrip

/-!
# What opening accepts and how it refuses the rest

`Opens k s verdict` reads a sealed text the way its format is described: too short for a
vector and a block, or no whole number of blocks, or whole and then whatever its deciphered
text is taken for. The order of the checks shows only in the conditions: a case holds its
own ones and the failed ones before it.
-/

namespace DeviceTrust.Sealing

variable {k : Key} {s plain : Bytes}

/-- A vector and at least one block, in whole blocks. -/
structure Whole (s : Bytes) : Prop where
  long : 32 ≤ s.length
  blocks : 16 ∣ s.length

/-- What a sealed text is taken for. -/
inductive Opens (k : Key) (s : Bytes) : Except Error Bytes → Prop where
  /-- There is no room for a vector and a block. -/
  | tooShort (hlen : s.length < 32) : Opens k s (.error (.tooShort s.length))
  /-- The bytes behind the vector are no whole number of blocks. -/
  | notBlockAligned (hlen : 32 ≤ s.length) (hpart : ¬ 16 ∣ s.length - 16) :
    Opens k s (.error (.notBlockAligned (s.length - 16)))
  /-- The deciphered text decides. -/
  | whole {verdict : Except Error Bytes} (hwhole : Whole s)
    (hbody : Unframes (s.take 16) (k.deciphered s) verdict) : Opens k s verdict

theorem Opens.eq_openBytes {verdict : Except Error Bytes} (h : Opens k s verdict) :
    (Codec.keyed k).openBytes s = verdict := by
  have hdrop : (s.drop ivSize).length = s.length - 16 := by rw [List.length_drop, ivSize]
  cases h with
  | tooShort hlen =>
    simp only [Codec.openBytes, Codec.keyed]
    rw [if_pos (by rw [ivSize, blockSize]; omega)]
  | notBlockAligned hlen hpart =>
    simp only [Codec.openBytes, Codec.keyed]
    rw [if_neg (by rw [ivSize, blockSize]; omega), if_pos (by rw [hdrop, blockSize]; omega), hdrop]
  | whole hwhole hbody =>
    obtain ⟨hlong, hblocks⟩ := hwhole
    rw [openBytes_whole k (by rw [ivSize, blockSize]; omega) (by rw [hdrop, blockSize]; omega)]
    exact unframe_eq_iff.mpr hbody

theorem exists_opens (k : Key) (s : Bytes) : ∃ verdict, Opens k s verdict := by
  by_cases hlen : s.length < 32
  · exact ⟨_, .tooShort hlen⟩
  · by_cases hpart : 16 ∣ s.length - 16
    · obtain ⟨verdict, hbody⟩ := exists_unframes (s.take 16) (k.deciphered s)
      exact ⟨verdict, .whole ⟨by omega, by omega⟩ hbody⟩
    · exact ⟨_, .notBlockAligned (by omega) hpart⟩

/-- **Opening decides what a sealed text is.** -/
theorem openBytes_eq_iff {verdict : Except Error Bytes} :
    (Codec.keyed k).openBytes s = verdict ↔ Opens k s verdict := by
  constructor
  · rintro rfl
    obtain ⟨verdict, h⟩ := exists_opens k s
    rwa [h.eq_openBytes]
  · exact Opens.eq_openBytes

/-- The accepted texts: the deciphered text is a frame that does not end in a padding byte, followed by
padding bytes of any number and mix. -/
theorem openBytes_eq_ok_iff :
    (Codec.keyed k).openBytes s = .ok plain ↔
      Whole s ∧ Strips (k.deciphered s) (frame (s.take 16) plain) := by
  rw [openBytes_eq_iff]
  constructor
  · intro h
    cases h with
    | whole hwhole hbody =>
      cases hbody with
      | accepted hr => exact ⟨hwhole, hr⟩
  · rintro ⟨hwhole, hr⟩
    exact .whole hwhole (.accepted hr)

theorem openBytes_eq_tooShort_iff {n : Nat} :
    (Codec.keyed k).openBytes s = .error (.tooShort n) ↔ s.length < 32 ∧ n = s.length := by
  rw [openBytes_eq_iff]
  constructor
  · intro h
    cases h with
    | tooShort hlen => exact ⟨hlen, rfl⟩
    | whole _ hbody => nomatch hbody
  · rintro ⟨hlen, rfl⟩
    exact .tooShort hlen

theorem openBytes_eq_notBlockAligned_iff {n : Nat} :
    (Codec.keyed k).openBytes s = .error (.notBlockAligned n) ↔
      32 ≤ s.length ∧ ¬ 16 ∣ s.length - 16 ∧ n = s.length - 16 := by
  rw [openBytes_eq_iff]
  constructor
  · intro h
    cases h with
    | notBlockAligned hlen hpart => exact ⟨hlen, hpart, rfl⟩
    | whole _ hbody => nomatch hbody
  · rintro ⟨hlen, hpart, rfl⟩
    exact .notBlockAligned hlen hpart

theorem openBytes_eq_residualTooShort_iff {n : Nat} :
    (Codec.keyed k).openBytes s = .error (.residualTooShort n) ↔
      Whole s ∧ ∃ r, Strips (k.deciphered s) r ∧ r.length < 20 ∧ n = r.length := by
  rw [openBytes_eq_iff]
  constructor
  · intro h
    cases h with
    | whole hwhole hbody =>
      cases hbody with
      | short hr hlen => exact ⟨hwhole, _, hr, hlen, rfl⟩
  · rintro ⟨hwhole, r, hr, hlen, rfl⟩
    exact .whole hwhole (.short hr hlen)

theorem openBytes_eq_ambiguousTail_iff {b : UInt8} :
    (Codec.keyed k).openBytes s = .error (.ambiguousTail b) ↔
      Whole s ∧ ∃ r e, Strips (k.deciphered s) r ∧ 20 ≤ r.length ∧ ¬ IsFrame (s.take 16) r ∧
        FirstFrame (s.take 16) (k.deciphered s) r.length e ∧ ((k.deciphered s).take e).getLast? = some b := by
  rw [openBytes_eq_iff]
  constructor
  · intro h
    cases h with
    | whole hwhole hbody =>
      cases hbody with
      | ambiguous hr hlen hno he hb => exact ⟨hwhole, _, _, hr, hlen, hno, he, hb⟩
  · rintro ⟨hwhole, r, e, hr, hlen, hno, he, hb⟩
    exact .whole hwhole (.ambiguous hr hlen hno he hb)

theorem openBytes_eq_digestMismatch_iff :
    (Codec.keyed k).openBytes s = .error .digestMismatch ↔
      Whole s ∧ ∃ r, Strips (k.deciphered s) r ∧ 20 ≤ r.length ∧ ¬ IsFrame (s.take 16) r ∧
        ∀ e, r.length < e → e ≤ (k.deciphered s).length → ¬ IsFrame (s.take 16) ((k.deciphered s).take e) := by
  rw [openBytes_eq_iff]
  constructor
  · intro h
    cases h with
    | whole hwhole hbody =>
      cases hbody with
      | mismatch hr hlen hno hnone => exact ⟨hwhole, _, hr, hlen, hno, hnone⟩
  · rintro ⟨hwhole, r, hr, hlen, hno, hnone⟩
    exact .whole hwhole (.mismatch hr hlen hno hnone)

theorem Opens.verdict_cases {verdict : Except Error Bytes} (h : Opens k s verdict) :
    (∃ plain, verdict = .ok plain) ∨ (∃ n, verdict = .error (.tooShort n)) ∨
      (∃ n, verdict = .error (.notBlockAligned n)) ∨ (∃ n, verdict = .error (.residualTooShort n)) ∨
      (∃ b, verdict = .error (.ambiguousTail b)) ∨ verdict = .error .digestMismatch := by
  cases h with
  | tooShort hlen => exact .inr (.inl ⟨_, rfl⟩)
  | notBlockAligned hlen hpart => exact .inr (.inr (.inl ⟨_, rfl⟩))
  | whole hwhole hbody =>
    cases hbody with
    | accepted hr => exact .inl ⟨_, rfl⟩
    | short hr hlen => exact .inr (.inr (.inr (.inl ⟨_, rfl⟩)))
    | ambiguous hr hlen hno he hb => exact .inr (.inr (.inr (.inr (.inl ⟨_, rfl⟩))))
    | mismatch hr hlen hno hnone => exact .inr (.inr (.inr (.inr (.inr rfl))))

theorem openBytes_ne_cipher (fault : Chaining.Fault) : (Codec.keyed k).openBytes s ≠ .error (.cipher fault) := by
  intro h
  rcases (openBytes_eq_iff.mp h).verdict_cases with ⟨p, h⟩ | ⟨n, h⟩ | ⟨n, h⟩ | ⟨n, h⟩ | ⟨b, h⟩ | h <;> cases h

theorem sealBytes_ne_cipher (source : RandomSource) (fault : Chaining.Fault) :
    ((Codec.keyed k).sealBytes plain source).1 ≠ .error (.cipher fault) := by
  intro h
  rcases sealBytes_cases k plain source with ⟨b, -, hsealed⟩ | ⟨i, -, hsealed⟩
  · rw [hsealed] at h
    cases h
  · rw [hsealed] at h
    cases h

/-- **Opening accepts exactly its format and tells every other text apart.** The verdicts come in the
order of the checks, each under exactly its condition; the cipher itself never fails in either
direction, and no slice is out of range. -/
theorem opening_classifies (k : Key) (s : Bytes) :
    (∀ plain, (Codec.keyed k).openBytes s = .ok plain ↔
      Whole s ∧ Strips (k.deciphered s) (frame (s.take 16) plain)) ∧
    (∀ n, (Codec.keyed k).openBytes s = .error (.tooShort n) ↔ s.length < 32 ∧ n = s.length) ∧
    (∀ n, (Codec.keyed k).openBytes s = .error (.notBlockAligned n) ↔
      32 ≤ s.length ∧ ¬ 16 ∣ s.length - 16 ∧ n = s.length - 16) ∧
    (∀ n, (Codec.keyed k).openBytes s = .error (.residualTooShort n) ↔
      Whole s ∧ ∃ r, Strips (k.deciphered s) r ∧ r.length < 20 ∧ n = r.length) ∧
    (∀ b, (Codec.keyed k).openBytes s = .error (.ambiguousTail b) ↔
      Whole s ∧ ∃ r e, Strips (k.deciphered s) r ∧ 20 ≤ r.length ∧ ¬ IsFrame (s.take 16) r ∧
        FirstFrame (s.take 16) (k.deciphered s) r.length e ∧ ((k.deciphered s).take e).getLast? = some b) ∧
    ((Codec.keyed k).openBytes s = .error .digestMismatch ↔
      Whole s ∧ ∃ r, Strips (k.deciphered s) r ∧ 20 ≤ r.length ∧ ¬ IsFrame (s.take 16) r ∧
        ∀ e, r.length < e → e ≤ (k.deciphered s).length → ¬ IsFrame (s.take 16) ((k.deciphered s).take e)) ∧
    ((∃ plain, (Codec.keyed k).openBytes s = .ok plain) ∨
      (∃ n, (Codec.keyed k).openBytes s = .error (.tooShort n)) ∨
      (∃ n, (Codec.keyed k).openBytes s = .error (.notBlockAligned n)) ∨
      (∃ n, (Codec.keyed k).openBytes s = .error (.residualTooShort n)) ∨
      (∃ b, (Codec.keyed k).openBytes s = .error (.ambiguousTail b)) ∨
      (Codec.keyed k).openBytes s = .error .digestMismatch) ∧
    (∀ fault, (Codec.keyed k).openBytes s ≠ .error (.cipher fault)) ∧
    (∀ plain source fault, ((Codec.keyed k).sealBytes plain source).1 ≠ .error (.cipher fault)) ∧
    openBytes? k s = some ((Codec.keyed k).openBytes s) ∧
    (∀ plain source, sealBytes? k plain source = some ((Codec.keyed k).sealBytes plain source)) := by
  exact ⟨fun plain => openBytes_eq_ok_iff, fun n => openBytes_eq_tooShort_iff,
    fun n => openBytes_eq_notBlockAligned_iff, fun n => openBytes_eq_residualTooShort_iff,
    fun b => openBytes_eq_ambiguousTail_iff, openBytes_eq_digestMismatch_iff,
    (openBytes_eq_iff.mp rfl).verdict_cases, openBytes_ne_cipher,
    fun plain source fault => sealBytes_ne_cipher source fault, openBytes?_eq k s, sealBytes?_eq k⟩

end DeviceTrust.Sealing
