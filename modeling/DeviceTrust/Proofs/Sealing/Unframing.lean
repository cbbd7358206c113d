import DeviceTrust.Proofs.Sealing.Padding
import DeviceTrust.Sealing.Codec
import Mathlib.Data.Nat.Find

/-!
# What a deciphered text is taken for

`Unframes iv padded verdict` classifies a deciphered text by what it is, not by how it is
searched: stripped of its padding it is a frame of some plaintext, or too short to carry a
digest, or a longer part of it from its start is a frame, or none is. The cases exclude
each other and cover everything, and `unframe` gives the verdict in each of them.
-/

namespace DeviceTrust.Sealing

variable {iv padded plain r : Bytes} {kept : Nat}

/-- A digest followed by the bytes that it covers. -/
def IsFrame (iv r : Bytes) : Prop := ∃ plain, r = frame iv plain

theorem length_frame (iv plain : Bytes) : (frame iv plain).length = digestSize + plain.length := by
  rw [frame, List.length_append, length_digest]

theorem take_frame (iv plain : Bytes) : (frame iv plain).take digestSize = digest iv plain :=
  List.take_left' (length_digest iv plain)

theorem drop_frame (iv plain : Bytes) : (frame iv plain).drop digestSize = plain :=
  List.drop_left' (length_digest iv plain)

/-- A text is a frame when its first twenty bytes are the digest of the others. A text that is too short
for a digest is none, since a digest never is. -/
theorem isFrame_iff : IsFrame iv r ↔ digest iv (r.drop digestSize) = r.take digestSize := by
  constructor
  · rintro ⟨plain, rfl⟩
    rw [drop_frame, take_frame]
  · intro h
    refine ⟨r.drop digestSize, ?_⟩
    rw [frame, h, List.take_append_drop]

/-- The plaintext, or for an empty plaintext the digest, decides whether a frame ends in a padding byte. -/
theorem endsInPadding_frame (iv : Bytes) (hplain : plain ≠ []) :
    EndsInPadding (frame iv plain) ↔ EndsInPadding plain :=
  endsInPadding_append _ hplain

theorem not_endsInPadding_frame (iv : Bytes) {x : UInt8} (hlast : plain.getLast? = some x)
    (hkept : isPadding x = false) : ¬ EndsInPadding (frame iv plain) := by
  have hne : plain ≠ [] := by
    rintro rfl
    cases hlast
  rw [endsInPadding_frame iv hne, EndsInPadding, hlast]
  simp [hkept]

theorem frame_nil (iv : Bytes) : frame iv [] = digest iv [] := List.append_nil _

/-- The first `e` bytes are the shortest frame longer than what unpadding kept. -/
structure FirstFrame (iv padded : Bytes) (kept e : Nat) : Prop where
  longer : kept < e
  within : e ≤ padded.length
  isFrame : IsFrame iv (padded.take e)
  first : ∀ d, kept < d → d < e → ¬ IsFrame iv (padded.take d)

/-- The test of the rescan at the end that lies `d + 1` bytes above `kept`. -/
def fitsAt (iv padded : Bytes) (kept d : Nat) : Bool :=
  digest iv ((padded.take (d + (kept + 1))).drop digestSize) == padded.take digestSize

theorem fitsAt_iff (hkept : digestSize ≤ kept) (d : Nat) :
    fitsAt iv padded kept d = true ↔ IsFrame iv (padded.take (d + (kept + 1))) := by
  rw [fitsAt, beq_iff_eq, isFrame_iff, List.take_take, Nat.min_eq_left (by omega)]

/-- The rescan runs through the ends above `kept` in ascending order. -/
theorem strippedTail_eq (hkept : digestSize ≤ kept) :
    strippedTail iv padded kept =
      ((List.range (padded.length - kept)).find? (fitsAt iv padded kept)).bind fun d => padded[d + kept]? := by
  unfold strippedTail
  split
  · rw [show padded.length - kept = 0 by omega]
    rfl
  · simp only [List.find?_map, Option.bind_map]
    rfl

/-- The rescan finds the last byte of the shortest longer frame, if there is one. -/
theorem strippedTail_eq_some (hkept : digestSize ≤ kept) {e : Nat} (h : FirstFrame iv padded kept e)
    {b : UInt8} (hb : (padded.take e).getLast? = some b) :
    strippedTail iv padded kept = some b := by
  obtain ⟨hlonger, hwithin, hframe, hfirst⟩ := h
  have hfind : (List.range (padded.length - kept)).find? (fitsAt iv padded kept) = some (e - (kept + 1)) := by
    rw [List.find?_range_eq_some]
    refine ⟨?_, List.mem_range.mpr (by omega), ?_⟩
    · rw [fitsAt_iff hkept, Nat.sub_add_cancel hlonger]
      exact hframe
    · intro d hd
      have hnot := hfirst (d + (kept + 1)) (by omega) (by omega)
      rw [← fitsAt_iff hkept] at hnot
      rw [Bool.eq_false_iff.mpr hnot]
      rfl
  rw [List.getLast?_eq_getElem?, List.length_take, Nat.min_eq_left hwithin,
    List.getElem?_take_of_lt (by omega)] at hb
  rw [strippedTail_eq hkept, hfind, Option.bind_some, show e - (kept + 1) + kept = e - 1 by omega, hb]

theorem strippedTail_eq_none (hkept : digestSize ≤ kept)
    (h : ∀ e, kept < e → e ≤ padded.length → ¬ IsFrame iv (padded.take e)) :
    strippedTail iv padded kept = none := by
  have hfind : (List.range (padded.length - kept)).find? (fitsAt iv padded kept) = none := by
    rw [List.find?_eq_none]
    intro d hd
    have hd := List.mem_range.mp hd
    rw [fitsAt_iff hkept]
    exact h _ (by omega) (by omega)
  rw [strippedTail_eq hkept, hfind, Option.bind_none]

/-- What a deciphered text is taken for. -/
inductive Unframes (iv padded : Bytes) : Except Error Bytes → Prop where
  /-- Too little is left for a digest. -/
  | short {r : Bytes} (hr : Strips padded r) (hlen : r.length < digestSize) :
    Unframes iv padded (.error (.residualTooShort r.length))
  /-- What is left is a frame. -/
  | accepted {plain : Bytes} (hr : Strips padded (frame iv plain)) : Unframes iv padded (.ok plain)
  /-- Something longer is a frame. -/
  | ambiguous {r : Bytes} {e : Nat} {b : UInt8} (hr : Strips padded r) (hlen : digestSize ≤ r.length)
    (hno : ¬ IsFrame iv r) (he : FirstFrame iv padded r.length e) (hb : (padded.take e).getLast? = some b) :
    Unframes iv padded (.error (.ambiguousTail b))
  /-- Neither what is left nor anything longer is a frame. -/
  | mismatch {r : Bytes} (hr : Strips padded r) (hlen : digestSize ≤ r.length)
    (hno : ¬ IsFrame iv r) (hnone : ∀ e, r.length < e → e ≤ padded.length → ¬ IsFrame iv (padded.take e)) :
    Unframes iv padded (.error .digestMismatch)

theorem Unframes.eq_unframe {verdict : Except Error Bytes} (h : Unframes iv padded verdict) :
    unframe iv padded = verdict := by
  cases h with
  | short hr hlen =>
    obtain rfl := strips_iff.mp hr
    rw [unframe, if_pos hlen]
  | accepted hr =>
    have hlen : ¬ (unpad padded).length < digestSize := by
      rw [← strips_iff.mp hr, length_frame]
      omega
    rw [unframe, if_neg hlen, ← strips_iff.mp hr, drop_frame, take_frame, if_pos rfl]
  | ambiguous hr hlen hno he hb =>
    obtain rfl := strips_iff.mp hr
    rw [unframe, if_neg (by omega), if_neg (fun h => hno (isFrame_iff.mpr h)),
      strippedTail_eq_some hlen he hb]
  | mismatch hr hlen hno hnone =>
    obtain rfl := strips_iff.mp hr
    rw [unframe, if_neg (by omega), if_neg (fun h => hno (isFrame_iff.mpr h)),
      strippedTail_eq_none hlen hnone]

theorem exists_unframes (iv padded : Bytes) : ∃ verdict, Unframes iv padded verdict := by
  have hr := strips_unpad padded
  by_cases hlen : (unpad padded).length < digestSize
  · exact ⟨_, .short hr hlen⟩
  · have hlen : digestSize ≤ (unpad padded).length := by omega
    by_cases hframe : IsFrame iv (unpad padded)
    · obtain ⟨plain, hplain⟩ := hframe
      exact ⟨_, .accepted (hplain ▸ hr)⟩
    · by_cases hsome : ∃ e, (unpad padded).length < e ∧ e ≤ padded.length ∧ IsFrame iv (padded.take e)
      · -- the least of the longer frames is not empty, so it has a last byte
        classical
        obtain ⟨hlonger, hwithin, hfit⟩ := Nat.find_spec hsome
        have hne : padded.take (Nat.find hsome) ≠ [] := by
          rw [← List.length_pos_iff, List.length_take]
          omega
        refine ⟨_, .ambiguous hr hlen hframe ⟨hlonger, hwithin, hfit, ?_⟩ (List.getLast?_eq_some_getLast hne)⟩
        intro d hd hlt hdfit
        exact Nat.find_min hsome hlt ⟨hd, by omega, hdfit⟩
      · refine ⟨_, .mismatch hr hlen hframe ?_⟩
        intro e hlonger hwithin hfit
        exact hsome ⟨e, hlonger, hwithin, hfit⟩

/-- **`unframe` decides what a deciphered text is.** -/
theorem unframe_eq_iff {verdict : Except Error Bytes} :
    unframe iv padded = verdict ↔ Unframes iv padded verdict := by
  constructor
  · rintro rfl
    obtain ⟨verdict, h⟩ := exists_unframes iv padded
    rwa [h.eq_unframe]
  · exact Unframes.eq_unframe

end DeviceTrust.Sealing
