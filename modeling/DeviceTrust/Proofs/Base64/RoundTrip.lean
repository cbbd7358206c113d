import DeviceTrust.Base64
import DeviceTrust.Proofs.Bytes
import DeviceTrust.Proofs.Outcome
import DeviceTrust.Proofs.Text.Trim

/-!
# Base64 is read back

Three bytes and four symbols are the same number below 2^24, written in two ways; a last group of
one or two bytes is such a number with zeros at its end. Padding is only counted, and writing puts
there what reading wants to count.
-/

namespace DeviceTrust.Base64

variable {a : Alphabet} {offset n : Nat} {x y z : UInt8}

theorem value?_symbol (h : n < 64) : a.value? (a.symbol n) = some n := by
  have hall : ∀ n < 64, a.value? (a.symbol n) = some n := by cases a <;> decide +kernel
  exact hall n h

theorem symbol_ne_pad (h : n < 64) : a.symbol n ≠ pad := by
  have hall : ∀ n < 64, a.symbol n ≠ pad := by cases a <;> decide +kernel
  exact hall n h

/-- Values beyond the last share its symbol, so sixty-four cases are all. -/
theorem forall_symbol {p : UInt8 → Prop} (h : ∀ n < 64, p (a.symbol n)) (n : Nat) : p (a.symbol n) := by
  by_cases hn : n < 64
  · exact h n hn
  · have hlast : a.symbol n = a.symbol 63 := by
      rw [Alphabet.symbol.eq_def, if_neg (by omega), if_neg (by omega), if_neg (by omega), if_neg (by omega),
        if_neg (by omega)]
      cases a <;> rfl
    rw [hlast]
    exact h 63 (by decide)

theorem symbol_lt (a : Alphabet) (n : Nat) : a.symbol n < 128 := by
  have hall : ∀ n < 64, a.symbol n < 128 := by cases a <;> decide +kernel
  exact forall_symbol (p := (· < 128)) hall n

theorem valueAt_symbol (h : n < 64) : valueAt a offset (a.symbol n) = .ok n := by
  rw [valueAt, value?_symbol h]

theorem readLastGroup_symbols (a : Alphabet) (offset : Nat) {vs : List Nat} (hvs : ∀ v ∈ vs, v < 64) (i : Nat)
    (values : List Nat) (last : UInt8) (rest : Bytes) :
    ∃ last', readLastGroup a offset i ⟨values, 0, last⟩ (vs.map a.symbol ++ rest) =
      readLastGroup a offset (i + vs.length) ⟨values ++ vs, 0, last'⟩ rest := by
  induction vs generalizing i values last with
  | nil => exact ⟨last, by rw [List.append_nil]; rfl⟩
  | cons v vs ih =>
    rw [List.forall_mem_cons] at hvs
    obtain ⟨last', hread⟩ := ih hvs.2 (i + 1) (values ++ [v]) (a.symbol v)
    refine ⟨last', ?_⟩
    rw [List.map_cons, List.cons_append, readLastGroup, if_neg (symbol_ne_pad hvs.1), if_neg (Nat.lt_irrefl 0),
      valueAt_symbol hvs.1, ok_bind, hread, List.append_assoc, List.length_cons, List.singleton_append]
    congr 1
    omega

theorem readLastGroup_padding {i : Nat} (h : 2 ≤ i) (g : LastGroup) (count : Nat) :
    readLastGroup a offset i g (List.replicate count pad) = .ok { g with padding := g.padding + count } := by
  induction count generalizing i g with
  | zero => rfl
  | succ count ih =>
    rw [List.replicate_succ, readLastGroup, if_pos rfl, if_neg (Nat.not_lt.mpr h), ih (by omega)]
    change Except.ok { g with padding := g.padding + 1 + count } = _
    rw [Nat.add_right_comm, Nat.add_assoc]

/-- The padding behind a last group of `count` symbols. -/
def paddingFor (a : Alphabet) (count : Nat) : Nat := if a.padded then 4 - count else 0

/-- A last group of two to four symbols, with its padding, is read as their values. -/
theorem decodeGroups_last (a : Alphabet) (offset : Nat) (vs : List Nat) (hvs : ∀ v ∈ vs, v < 64) (hlow : 2 ≤ vs.length)
    (hhigh : vs.length ≤ 4) :
    ∃ last, decodeGroups a offset (vs.map a.symbol ++ List.replicate (paddingFor a vs.length) pad) =
      finishGroup a offset ⟨vs, paddingFor a vs.length, last⟩ := by
  obtain ⟨last, hread⟩ := readLastGroup_symbols a offset hvs 0 [] 0 (List.replicate (paddingFor a vs.length) pad)
  have hpadding : paddingFor a vs.length ≤ 4 - vs.length := by
    rw [paddingFor]
    split <;> omega
  rw [readLastGroup_padding (by omega)] at hread
  refine ⟨last, ?_⟩
  rw [decodeGroups]
  · rw [hread, ok_bind, List.nil_append, Nat.zero_add]
  · intro p q r s t rest h
    have hlength := congrArg List.length h
    simp only [List.length_append, List.length_map, List.length_replicate, List.length_cons] at hlength
    omega

theorem paddingFor_fits (a : Alphabet) {count : Nat} (h : count ≤ 4) :
    ¬ (a.padded = true ∧ (paddingFor a count + count) % 4 ≠ 0) ∧ ¬ (a.padded = false ∧ paddingFor a count > 0) := by
  rw [paddingFor]
  constructor
  · rintro ⟨hpadded, hcount⟩
    rw [if_pos hpadded] at hcount
    omega
  · rintro ⟨hpadded, hcount⟩
    rw [hpadded, if_neg Bool.false_ne_true] at hcount
    exact absurd hcount (Nat.lt_irrefl 0)

variable {v w u t : Nat}

theorem decodeGroups_two_symbols (hv : v < 64) (hw : w < 64) (hbits : w % 16 = 0) :
    decodeGroups a offset (a.symbol v :: a.symbol w :: List.replicate (paddingFor a 2) pad) =
      .ok [UInt8.ofNat ((v * 64 + w) / 16)] := by
  obtain ⟨last, hread⟩ := decodeGroups_last a offset [v, w]
    (by simp [hv, hw]) (Nat.le_refl 2) (by simp)
  obtain ⟨hfits, hmissing⟩ := paddingFor_fits a (show 2 ≤ 4 by decide)
  exact hread.trans (by rw [finishGroup]; exact (if_neg hfits).trans ((if_neg hmissing).trans (if_pos hbits)))

theorem decodeGroups_three_symbols (hv : v < 64) (hw : w < 64) (hu : u < 64) (hbits : u % 4 = 0) :
    decodeGroups a offset (a.symbol v :: a.symbol w :: a.symbol u :: List.replicate (paddingFor a 3) pad) =
      .ok [UInt8.ofNat (((v * 64 + w) * 64 + u) / 4 / 256), UInt8.ofNat (((v * 64 + w) * 64 + u) / 4 % 256)] := by
  obtain ⟨last, hread⟩ := decodeGroups_last a offset [v, w, u]
    (by simp [hv, hw, hu]) (by simp) (by simp)
  obtain ⟨hfits, hmissing⟩ := paddingFor_fits a (show 3 ≤ 4 by decide)
  exact hread.trans (by rw [finishGroup]; exact (if_neg hfits).trans ((if_neg hmissing).trans (if_pos hbits)))

theorem decodeGroups_four_symbols (hv : v < 64) (hw : w < 64) (hu : u < 64) (ht : t < 64) :
    decodeGroups a offset [a.symbol v, a.symbol w, a.symbol u, a.symbol t] =
      .ok [UInt8.ofNat ((((v * 64 + w) * 64 + u) * 64 + t) / 65536),
        UInt8.ofNat ((((v * 64 + w) * 64 + u) * 64 + t) / 256 % 256),
        UInt8.ofNat ((((v * 64 + w) * 64 + u) * 64 + t) % 256)] := by
  obtain ⟨last, hread⟩ := decodeGroups_last a offset [v, w, u, t]
    (by simp [hv, hw, hu, ht]) (by simp) (by simp)
  obtain ⟨hfits, hmissing⟩ := paddingFor_fits a (show 4 ≤ 4 by decide)
  have hnone : paddingFor a 4 = 0 := by
    rw [paddingFor]
    split <;> rfl
  change decodeGroups a offset ([v, w, u, t].map a.symbol ++ List.replicate (paddingFor a 4) pad) = _ at hread
  rw [hnone, List.replicate_zero, List.append_nil] at hread
  exact hread.trans (by rw [finishGroup]; exact (if_neg hfits).trans (if_neg hmissing))

theorem ofNat_eq {n : Nat} (h : n = x.toNat) : UInt8.ofNat n = x := by
  rw [h, UInt8.ofNat_toNat]

theorem encodeBytes_one : encodeBytes a [x] = a.symbol (x.toNat * 16 / 64) :: a.symbol (x.toNat * 16 % 64) ::
    List.replicate (paddingFor a 2) pad := by
  cases a <;> rfl

theorem encodeBytes_two (hn : n = (x.toNat * 256 + y.toNat) * 4) :
    encodeBytes a [x, y] = a.symbol (n / 4096) :: a.symbol (n / 64 % 64) :: a.symbol (n % 64) ::
      List.replicate (paddingFor a 3) pad := by
  subst hn
  cases a <;> rfl

theorem encodeBytes_three {rest : Bytes} (hn : n = (x.toNat * 256 + y.toNat) * 256 + z.toNat) :
    encodeBytes a (x :: y :: z :: rest) = a.symbol (n / 262144) :: a.symbol (n / 4096 % 64) ::
      a.symbol (n / 64 % 64) :: a.symbol (n % 64) :: encodeBytes a rest := by
  subst hn
  rfl

theorem decodeGroups_one : decodeGroups a offset (encodeBytes a [x]) = .ok [x] := by
  have hx := x.toNat_lt
  rw [encodeBytes_one, decodeGroups_two_symbols (by omega) (by omega) (by omega), ofNat_eq]
  omega

theorem decodeGroups_two : decodeGroups a offset (encodeBytes a [x, y]) = .ok [x, y] := by
  have hx := x.toNat_lt
  have hy := y.toNat_lt
  obtain ⟨n, hn⟩ : ∃ n, n = (x.toNat * 256 + y.toNat) * 4 := ⟨_, rfl⟩
  have hvalue : ((n / 4096 * 64 + n / 64 % 64) * 64 + n % 64) / 4 = x.toNat * 256 + y.toNat := by omega
  rw [encodeBytes_two hn, decodeGroups_three_symbols (by omega) (by omega) (by omega) (by omega), hvalue,
    ofNat_eq, ofNat_eq]
  · omega
  · omega

/-- The number of three bytes, taken apart into symbols and put together again. -/
theorem symbols_value (n : Nat) :
    ((n / 262144 * 64 + n / 4096 % 64) * 64 + n / 64 % 64) * 64 + n % 64 = n := by
  omega

theorem bytes_of_value (hn : n = (x.toNat * 256 + y.toNat) * 256 + z.toNat) :
    UInt8.ofNat (n / 65536) = x ∧ UInt8.ofNat (n / 256 % 256) = y ∧ UInt8.ofNat (n % 256) = z := by
  have hx := x.toNat_lt
  have hy := y.toNat_lt
  have hz := z.toNat_lt
  exact ⟨ofNat_eq (by omega), ofNat_eq (by omega), ofNat_eq (by omega)⟩

theorem encodeBytes_ne_nil (a : Alphabet) {b : Bytes} (hb : b ≠ []) : encodeBytes a b ≠ [] := by
  cases b using encodeBytes.fun_cases with
  | case1 => exact absurd rfl hb
  | case2 x => exact List.cons_ne_nil _ _
  | case3 x y => exact List.cons_ne_nil _ _
  | case4 x y z rest => exact List.cons_ne_nil _ _

theorem decodeGroups_encodeBytes {b : Bytes} (hb : b ≠ []) : decodeGroups a offset (encodeBytes a b) = .ok b := by
  induction b using encodeBytes.induct generalizing offset with
  | case1 => exact absurd rfl hb
  | case2 x => exact decodeGroups_one
  | case3 x y => exact decodeGroups_two
  | case4 x y z rest ih =>
    have hx := x.toNat_lt
    have hy := y.toNat_lt
    have hz := z.toNat_lt
    obtain ⟨n, hn⟩ : ∃ n, n = (x.toNat * 256 + y.toNat) * 256 + z.toNat := ⟨_, rfl⟩
    obtain ⟨hfirst, hsecond, hthird⟩ := bytes_of_value hn
    have hvalue := symbols_value n
    rw [encodeBytes_three hn]
    by_cases hrest : rest = []
    · rw [hrest, encodeBytes, decodeGroups_four_symbols (by omega) (by omega) (by omega) (by omega), hvalue, hfirst,
        hsecond, hthird]
    · obtain ⟨s, more, hmore⟩ := List.exists_cons_of_ne_nil (encodeBytes_ne_nil a hrest)
      have htail : decodeGroups a (offset + 4) (encodeBytes a rest) = .ok rest := ih hrest
      rw [hmore] at htail ⊢
      rw [decodeGroups, valueAt_symbol (by omega), valueAt_symbol (by omega), valueAt_symbol (by omega),
        valueAt_symbol (by omega), htail]
      simp only [ok_bind, hvalue, hfirst, hsecond, hthird]
      rfl

theorem length_encodeBytes_mod (b : Bytes) : (encodeBytes a b).length % 4 ≠ 1 := by
  induction b using encodeBytes.induct with
  | case1 => exact Nat.zero_ne_one
  | case2 x => cases a <;> simp [encodeBytes, Alphabet.padded]
  | case3 x y => cases a <;> simp [encodeBytes, Alphabet.padded]
  | case4 x y z rest ih =>
    simp only [encodeBytes, List.length_cons]
    omega

theorem decodeBytes_encodeBytes (b : Bytes) : decodeBytes a (encodeBytes a b) = .ok b := by
  by_cases hb : b = []
  · rw [hb]
    rfl
  · have hne := encodeBytes_ne_nil a hb
    rw [decodeBytes]
    · rw [if_neg fun h => length_encodeBytes_mod b h.1, decodeGroups_encodeBytes hb]
    · exact hne

theorem eq_pad_of_mem_padding {s : UInt8} (h : s ∈ List.replicate (paddingFor a n) pad) :
    s = pad ∧ a.padded = true := by
  obtain ⟨hcount, rfl⟩ := List.mem_replicate.mp h
  refine ⟨rfl, ?_⟩
  by_contra hbare
  rw [paddingFor, if_neg hbare] at hcount
  exact hcount rfl

/-- What holds of all symbols, and of the padding where there is any, holds of everything that is written. -/
theorem forall_mem_encodeBytes {p : UInt8 → Prop} (hsymbol : ∀ n, p (a.symbol n)) (hpad : a.padded = true → p pad)
    (b : Bytes) : ∀ s ∈ encodeBytes a b, p s := by
  have hpadding {n : Nat} : ∀ s ∈ List.replicate (paddingFor a n) pad, p s := by
    intro s hs
    obtain ⟨rfl, hpadded⟩ := eq_pad_of_mem_padding hs
    exact hpad hpadded
  induction b using encodeBytes.induct with
  | case1 => exact nofun
  | case2 x =>
    intro s hs
    simp only [encodeBytes_one, List.mem_cons] at hs
    rcases hs with rfl | rfl | hs
    · exact hsymbol _
    · exact hsymbol _
    · exact hpadding s hs
  | case3 x y =>
    intro s hs
    simp only [encodeBytes_two rfl, List.mem_cons] at hs
    rcases hs with rfl | rfl | rfl | hs
    · exact hsymbol _
    · exact hsymbol _
    · exact hsymbol _
    · exact hpadding s hs
  | case4 x y z rest ih =>
    intro s hs
    simp only [encodeBytes, List.mem_cons] at hs
    rcases hs with rfl | rfl | rfl | rfl | hs
    · exact hsymbol _
    · exact hsymbol _
    · exact hsymbol _
    · exact hsymbol _
    · exact ih s hs

theorem lt_of_mem_encodeBytes {b : Bytes} {s : UInt8} (h : s ∈ encodeBytes a b) : s < 128 :=
  forall_mem_encodeBytes (p := (· < 128)) (symbol_lt a) (fun _ => by decide) b s h

theorem forall_mem_encode {p : Char → Prop} (hsymbol : ∀ n < 64, p (Char.ofNat (a.symbol n).toNat))
    (hpad : a.padded = true → p '=') (b : Bytes) : ∀ c ∈ (encode a b).toList, p c := by
  have hall : ∀ s ∈ encodeBytes a b, p (Char.ofNat s.toNat) :=
    forall_mem_encodeBytes (forall_symbol (p := fun s => p (Char.ofNat s.toNat)) hsymbol) hpad b
  intro c hc
  rw [encode, String.toList_ofList] at hc
  obtain ⟨s, hs, rfl⟩ := List.mem_map.mp hc
  exact hall s hs

/-- **Bytes are read back from their text.** -/
theorem decode_encode (a : Alphabet) (b : Bytes) : decode a (encode a b) = .ok b := by
  rw [decode, encode, Bytes.ofText_ofList_map fun _ => lt_of_mem_encodeBytes, decodeBytes_encodeBytes]

/-- Nothing that is written is blank, so trimming leaves it as it is. -/
theorem trim_encode (a : Alphabet) (b : Bytes) : Text.trim (encode a b) = encode a b := by
  have hsymbol : ∀ n < 64, Text.isBlank (Char.ofNat (a.symbol n).toNat) = false := by cases a <;> decide +kernel
  exact Text.trim_eq_self (forall_mem_encode (p := fun c => Text.isBlank c = false) hsymbol (fun _ => by decide) b)

end DeviceTrust.Base64
