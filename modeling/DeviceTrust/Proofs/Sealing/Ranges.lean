import DeviceTrust.Proofs.Sealing.Padding
import DeviceTrust.Sealing.Codec

/-!
# No slice is out of range

Taking and dropping bytes is total, so a length that a check forgot would go unnoticed. Here
the computations of sealing and opening are written once more over slices and indices that
give nothing outside the text, and each is shown to give what the total one gives. The
equations therefore say that the length checks come before every slice that needs them.
-/

namespace DeviceTrust.Sealing

/-- The bytes from `lo` up to `hi`, or nothing if they do not lie within the text. -/
def slice? (b : Bytes) (lo hi : Nat) : Option Bytes :=
  if lo ≤ hi ∧ hi ≤ b.length then some ((b.take hi).drop lo) else none

theorem slice?_eq {b : Bytes} {lo hi : Nat} (h : lo ≤ hi) (hb : hi ≤ b.length) :
    slice? b lo hi = some ((b.take hi).drop lo) := if_pos ⟨h, hb⟩

theorem slice?_start {b : Bytes} {hi : Nat} (hb : hi ≤ b.length) : slice? b 0 hi = some (b.take hi) :=
  slice?_eq (Nat.zero_le hi) hb

theorem slice?_end {b : Bytes} {lo : Nat} (hb : lo ≤ b.length) : slice? b lo b.length = some (b.drop lo) := by
  rw [slice?_eq hb (Nat.le_refl _), List.take_length]

/-- `unpad` as a slice up to the end that the scan finds. -/
def unpad? (b : Bytes) : Option Bytes := slice? b 0 (unpad b).length

/-- Whether a digest is that of the text between the digest's place and an end. -/
def fits? (iv padded wanted : Bytes) (e : Nat) : Option Bool :=
  (slice? padded digestSize e).map fun plain => digest iv plain == wanted

def strippedTail? (iv padded : Bytes) (kept : Nat) : Option (Option UInt8) :=
  if kept < digestSize ∨ padded.length < kept then some none
  else do
    let wanted ← slice? padded 0 digestSize
    let ends := (List.range (padded.length - kept)).map (· + (kept + 1))
    match ← ends.findM? (fits? iv padded wanted) with
    | none => return none
    | some e => return some (← padded[e - 1]?)

def unframe? (iv padded : Bytes) : Option (Except Error Bytes) := do
  let residual ← unpad? padded
  if residual.length < digestSize then return .error (.residualTooShort residual.length)
  else
    let wanted ← slice? residual 0 digestSize
    let plain ← slice? residual digestSize residual.length
    if digest iv plain = wanted then return .ok plain
    else match ← strippedTail? iv padded residual.length with
      | some b => return .error (.ambiguousTail b)
      | none => return .error .digestMismatch

def openBytes? (k : Key) (s : Bytes) : Option (Except Error Bytes) :=
  if s.length < ivSize + blockSize then some (.error (.tooShort s.length))
  else do
    let iv ← slice? s 0 ivSize
    let cipher ← slice? s ivSize s.length
    if cipher.length % blockSize ≠ 0 then return .error (.notBlockAligned cipher.length)
    else match k.run .decipher iv cipher with
      | .error e => return .error e
      | .ok padded => unframe? iv padded

theorem unpad?_eq (b : Bytes) : unpad? b = some (unpad b) := by
  obtain ⟨t, ht, -⟩ := (strips_unpad b).tail
  have htake : (unpad b ++ t).take (unpad b).length = unpad b := List.take_left
  rw [← ht] at htake
  rw [unpad?, slice?_start (length_unpad_le b), htake]

/-- A search whose test never fails is the search with the test's answers. -/
theorem findM?_eq_some {α : Type} {l : List α} {test : α → Option Bool} {p : α → Bool}
    (h : ∀ a ∈ l, test a = some (p a)) : l.findM? test = some (l.find? p) := by
  induction l with
  | nil => rfl
  | cons a l ih =>
    have ih := ih fun b hb => h b (List.mem_cons_of_mem a hb)
    rw [List.findM?, h a List.mem_cons_self, List.find?_cons]
    cases hp : p a with
    | true => rfl
    | false => exact ih

theorem strippedTail?_eq (iv padded : Bytes) (kept : Nat) :
    strippedTail? iv padded kept = some (strippedTail iv padded kept) := by
  unfold strippedTail? strippedTail
  split
  · rfl
  · rename_i hkept
    have hends : ∀ e ∈ (List.range (padded.length - kept)).map (· + (kept + 1)), kept < e ∧ e ≤ padded.length := by
      intro e he
      obtain ⟨d, hd, rfl⟩ := List.mem_map.mp he
      have hd := List.mem_range.mp hd
      omega
    have hfits : ∀ e ∈ (List.range (padded.length - kept)).map (· + (kept + 1)),
        fits? iv padded (padded.take digestSize) e
          = some (digest iv ((padded.take e).drop digestSize) == padded.take digestSize) := by
      intro e he
      have he := hends e he
      rw [fits?, slice?_eq (by omega) he.2, Option.map_some]
    rw [slice?_start (by omega)]
    simp only [Option.bind_eq_bind, Option.bind_some, findM?_eq_some hfits]
    cases hfound : List.find? _ _ with
    | none => rfl
    | some e =>
      have he := hends e (List.mem_of_find?_eq_some hfound)
      have hlast : padded[e - 1]? = some padded[e - 1] := List.getElem?_eq_getElem (by omega)
      simp only [Option.bind_some, hlast]
      rfl

theorem unframe?_eq (iv padded : Bytes) : unframe? iv padded = some (unframe iv padded) := by
  rw [unframe?, unpad?_eq, unframe]
  simp only [Option.bind_eq_bind, Option.bind_some]
  split
  · rfl
  · rename_i hlen
    rw [slice?_start (by omega), slice?_end (by omega), strippedTail?_eq]
    simp only [Option.bind_some]
    split
    · rfl
    · cases strippedTail iv padded (unpad padded).length with
      | some b => rfl
      | none => rfl

/-- **Opening stays within its text.** -/
theorem openBytes?_eq (k : Key) (s : Bytes) : openBytes? k s = some ((Codec.keyed k).openBytes s) := by
  unfold openBytes? Codec.openBytes Codec.keyed
  simp only
  split
  · rfl
  · rename_i hlen
    rw [slice?_start (by omega), slice?_end (by omega)]
    simp only [Option.bind_eq_bind, Option.bind_some]
    split
    · rfl
    · cases k.run .decipher (s.take ivSize) (s.drop ivSize) with
      | error e => rfl
      | ok padded => exact unframe?_eq _ _

/-- `drawEmptyIv` with the last byte of each digest looked up by its index. -/
def drawEmptyIv? : Nat → RandomSource → Option (Option Bytes × RandomSource)
  | 0, source => some (none, source)
  | attempts + 1, source => do
    let (iv, rest) := source.draw ivSize
    if isPadding (← (digest iv [])[digestSize - 1]?) then drawEmptyIv? attempts rest
    else return (some iv, rest)

def sealBytes? (k : Key) (plain : Bytes) (source : RandomSource) :
    Option (Except Error Bytes × RandomSource) :=
  match plain.getLast? with
  | some last =>
    if isPadding last then some (.error (.ambiguousTail last), source)
    else
      let (iv, rest) := source.draw ivSize
      some (sealWith k iv plain, rest)
  | none => do
    match ← drawEmptyIv? emptyAttempts source with
    | (some iv, rest) => return (sealWith k iv plain, rest)
    | (none, rest) => return (.error (.ambiguousTail 0), rest)

theorem drawEmptyIv?_eq (attempts : Nat) (source : RandomSource) :
    drawEmptyIv? attempts source = some (drawEmptyIv attempts source) := by
  induction attempts generalizing source with
  | zero => rfl
  | succ attempts ih =>
    have hlast (iv : Bytes) : (digest iv [])[digestSize - 1]? = some ((digest iv []).getLastD 0) := by
      rw [← length_digest iv [], ← List.getLast?_eq_getElem?, List.getLastD_eq_getLast?,
        List.getLast?_eq_some_getLast (digest_ne_nil _ _), Option.getD_some]
    simp only [drawEmptyIv?, drawEmptyIv, hlast, Option.bind_eq_bind, Option.bind_some, ih]
    split <;> rfl

/-- **Sealing stays within its text.** -/
theorem sealBytes?_eq (k : Key) (plain : Bytes) (source : RandomSource) :
    sealBytes? k plain source = some ((Codec.keyed k).sealBytes plain source) := by
  unfold sealBytes? Codec.sealBytes Codec.keyed
  simp only [drawEmptyIv?_eq, Option.bind_eq_bind, Option.bind_some]
  cases plain.getLast? with
  | none =>
    obtain ⟨drawn, rest⟩ := drawEmptyIv emptyAttempts source
    cases drawn <;> rfl
  | some last =>
    simp only
    split <;> rfl

end DeviceTrust.Sealing
