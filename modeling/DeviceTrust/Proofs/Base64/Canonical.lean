import DeviceTrust.Proofs.Base64.RoundTrip

/-!
# Base64 has one spelling

Reading accepts only what writing produces. A symbol is looked up in the table that it was taken from,
so the symbols of a text are those of their values. The last group is where a second spelling could
hide: in padding that is left out or too much of it, which the count of the group rules out, and in
bits that no byte takes, which must be zero. So what holds of every written text holds of every text
that reads: under the URL alphabet it has neither padding nor a dot.
-/

namespace DeviceTrust.Base64

variable {a : Alphabet} {offset n : Nat} {x y z : UInt8} {input b : Bytes} {v w u t : Nat}

theorem symbol_of_value? (h : a.value? x = some v) : v < 64 ∧ a.symbol v = x := by
  have hall : ∀ x : UInt8, ∀ v ∈ a.value? x, v < 64 ∧ a.symbol v = x := by
    cases a <;> exact Bytes.forall_byte (by decide +kernel)
  exact hall x v h

theorem symbol_of_valueAt (h : valueAt a offset x = .ok v) : v < 64 ∧ a.symbol v = x := by
  rw [valueAt] at h
  split at h
  · rename_i hv
    cases h
    exact symbol_of_value? hv
  · cases h

/-- A group that is read is its values in symbols and then padding. Once there is padding no symbol may come. -/
theorem readLastGroup_eq_ok {i : Nat} {g g' : LastGroup} (h : readLastGroup a offset i g input = .ok g') :
    ∃ vs count, input = vs.map a.symbol ++ List.replicate count pad ∧ (∀ v ∈ vs, v < 64) ∧
      g'.values = g.values ++ vs ∧ g'.padding = g.padding + count ∧ (0 < g.padding → vs = []) := by
  induction input generalizing i g with
  | nil =>
    cases h
    exact ⟨[], 0, rfl, nofun, (List.append_nil _).symm, rfl, fun _ => rfl⟩
  | cons x rest ih =>
    rw [readLastGroup] at h
    split at h
    · rename_i hpad
      split at h
      · cases h
      · obtain ⟨vs, count, hrest, -, hvalues, hpadding, hnone⟩ := ih h
        obtain rfl := hnone (Nat.succ_pos _)
        refine ⟨[], count + 1, by rw [hpad, hrest]; rfl, nofun, hvalues, ?_, fun _ => rfl⟩
        rw [hpadding, Nat.add_assoc, Nat.add_comm 1]
    · split at h
      · cases h
      · rename_i hbefore
        obtain ⟨v, hv, h⟩ := bind_eq_ok.mp h
        obtain ⟨hlt, hsymbol⟩ := symbol_of_valueAt hv
        obtain ⟨vs, count, hrest, hvs, hvalues, hpadding, -⟩ := ih h
        refine ⟨v :: vs, count, by rw [hrest, ← hsymbol]; rfl, List.forall_mem_cons.mpr ⟨hlt, hvs⟩, ?_, hpadding,
          fun hpos => absurd hpos hbefore⟩
        rw [hvalues, List.append_assoc, List.singleton_append]

theorem encodeBytes_of_two_symbols (hv : v < 64) (hw : w < 64) (hbits : w % 16 = 0) :
    encodeBytes a [UInt8.ofNat ((v * 64 + w) / 16)] =
      [v, w].map a.symbol ++ List.replicate (paddingFor a 2) pad := by
  have hbyte : (UInt8.ofNat ((v * 64 + w) / 16)).toNat = (v * 64 + w) / 16 :=
    UInt8.toNat_ofNat_of_lt (show _ < 256 by omega)
  have hfirst : (v * 64 + w) / 16 * 16 / 64 = v := by omega
  have hsecond : (v * 64 + w) / 16 * 16 % 64 = w := by omega
  rw [encodeBytes_one, hbyte, hfirst, hsecond]
  rfl

theorem encodeBytes_of_three_symbols (hv : v < 64) (hw : w < 64) (hu : u < 64) (hbits : u % 4 = 0)
    (hn : n = ((v * 64 + w) * 64 + u) / 4) :
    encodeBytes a [UInt8.ofNat (n / 256), UInt8.ofNat (n % 256)] =
      [v, w, u].map a.symbol ++ List.replicate (paddingFor a 3) pad := by
  have hhigh : (UInt8.ofNat (n / 256)).toNat = n / 256 :=
    UInt8.toNat_ofNat_of_lt (show _ < 256 by omega)
  have hlow : (UInt8.ofNat (n % 256)).toNat = n % 256 :=
    UInt8.toNat_ofNat_of_lt (show _ < 256 by omega)
  have hvalue : (v * 64 + w) * 64 + u = (n / 256 * 256 + n % 256) * 4 := by omega
  rw [← hhigh, ← hlow] at hvalue
  rw [encodeBytes_two hvalue, show ((v * 64 + w) * 64 + u) / 4096 = v by omega,
    show ((v * 64 + w) * 64 + u) / 64 % 64 = w by omega, show ((v * 64 + w) * 64 + u) % 64 = u by omega]
  rfl

theorem encodeBytes_of_four_symbols {rest : Bytes} (hv : v < 64) (hw : w < 64) (hu : u < 64) (ht : t < 64)
    (hn : n = ((v * 64 + w) * 64 + u) * 64 + t) :
    encodeBytes a (UInt8.ofNat (n / 65536) :: UInt8.ofNat (n / 256 % 256) :: UInt8.ofNat (n % 256) :: rest) =
      [v, w, u, t].map a.symbol ++ encodeBytes a rest := by
  have hhigh : (UInt8.ofNat (n / 65536)).toNat = n / 65536 :=
    UInt8.toNat_ofNat_of_lt (show _ < 256 by omega)
  have hmiddle : (UInt8.ofNat (n / 256 % 256)).toNat = n / 256 % 256 :=
    UInt8.toNat_ofNat_of_lt (show _ < 256 by omega)
  have hlow : (UInt8.ofNat (n % 256)).toNat = n % 256 :=
    UInt8.toNat_ofNat_of_lt (show _ < 256 by omega)
  have hvalue : n = (n / 65536 * 256 + n / 256 % 256) * 256 + n % 256 := by omega
  rw [encodeBytes_three (hvalue.trans (by rw [hhigh, hmiddle, hlow])), show n / 262144 = v by omega,
    show n / 4096 % 64 = w by omega, show n / 64 % 64 = u by omega, show n % 64 = t by omega]
  rfl

/-- A group that is closed has the padding that the alphabet asks for. -/
theorem padding_of_finishGroup {g : LastGroup} (h : finishGroup a offset g = .ok b) (hlow : 2 ≤ g.values.length)
    (hplaces : g.values.length + g.padding ≤ 4) : g.padding = paddingFor a g.values.length := by
  rw [finishGroup] at h
  split at h
  · cases h
  · rename_i hfull
    split at h
    · cases h
    · rename_i hnone
      rw [paddingFor]
      by_cases hpadded : a.padded = true
      · have hcount : (g.padding + g.values.length) % 4 = 0 := Decidable.not_not.mp fun hne => hfull ⟨hpadded, hne⟩
        rw [if_pos hpadded]
        omega
      · have hzero : ¬ 0 < g.padding := fun hpos => hnone ⟨Bool.eq_false_iff.mpr hpadded, hpos⟩
        rw [if_neg hpadded]
        omega

/-- What can be closed: two, three or four values, without bits that no byte takes. -/
theorem finishGroup_cases {g : LastGroup} (h : finishGroup a offset g = .ok b) :
    (∃ v w, g.values = [v, w] ∧ w % 16 = 0 ∧ b = [UInt8.ofNat ((v * 64 + w) / 16)]) ∨
    (∃ v w u n, g.values = [v, w, u] ∧ u % 4 = 0 ∧ n = ((v * 64 + w) * 64 + u) / 4 ∧
      b = [UInt8.ofNat (n / 256), UInt8.ofNat (n % 256)]) ∨
    ∃ v w u t n, g.values = [v, w, u, t] ∧ n = ((v * 64 + w) * 64 + u) * 64 + t ∧
      b = [UInt8.ofNat (n / 65536), UInt8.ofNat (n / 256 % 256), UInt8.ofNat (n % 256)] := by
  rw [finishGroup] at h
  split at h
  · cases h
  · split at h
    · cases h
    · split at h
      · rename_i v w hvalues
        split at h
        · rename_i hbits
          cases h
          exact .inl ⟨v, w, hvalues, hbits, rfl⟩
        · cases h
      · rename_i v w u hvalues
        split at h
        · rename_i hbits
          cases h
          exact .inr (.inl ⟨v, w, u, _, hvalues, hbits, rfl, rfl⟩)
        · cases h
      · rename_i v w u t hvalues
        cases h
        exact .inr (.inr ⟨v, w, u, t, _, hvalues, rfl, rfl⟩)
      · cases h

/-- A group of at most four places that is closed is what writing makes of its bytes. -/
theorem encodeBytes_of_finishGroup {g : LastGroup} (h : finishGroup a offset g = .ok b)
    (hvs : ∀ v ∈ g.values, v < 64) (hplaces : g.values.length + g.padding ≤ 4) :
    encodeBytes a b = g.values.map a.symbol ++ List.replicate g.padding pad := by
  have hpadding := padding_of_finishGroup h
  rcases finishGroup_cases h with
    ⟨v, w, hvalues, hbits, rfl⟩ | ⟨v, w, u, n, hvalues, hbits, hn, rfl⟩ | ⟨v, w, u, t, n, hvalues, hn, rfl⟩
  · rw [hvalues] at hvs hplaces hpadding ⊢
    simp only [List.forall_mem_cons] at hvs
    rw [encodeBytes_of_two_symbols hvs.1 hvs.2.1 hbits, hpadding (by simp) hplaces]
    rfl
  · rw [hvalues] at hvs hplaces hpadding ⊢
    simp only [List.forall_mem_cons] at hvs
    rw [encodeBytes_of_three_symbols hvs.1 hvs.2.1 hvs.2.2.1 hbits hn, hpadding (by simp) hplaces]
    rfl
  · rw [hvalues] at hvs hplaces ⊢
    simp only [List.forall_mem_cons] at hvs
    -- four values leave no place for padding
    have hzero : g.padding = 0 := by
      simp only [List.length_cons, List.length_nil] at hplaces
      omega
    rw [encodeBytes_of_four_symbols hvs.1 hvs.2.1 hvs.2.2.1 hvs.2.2.2.1 hn, hzero]
    rfl

theorem eq_encodeBytes_of_decodeGroups (h : decodeGroups a offset input = .ok b) : input = encodeBytes a b := by
  induction offset, input using decodeGroups.induct generalizing b with
  | case1 offset p q r s t rest ih =>
    rw [decodeGroups] at h
    obtain ⟨v, hp, h⟩ := bind_eq_ok.mp h
    obtain ⟨w, hq, h⟩ := bind_eq_ok.mp h
    obtain ⟨u, hr, h⟩ := bind_eq_ok.mp h
    obtain ⟨y, hs, h⟩ := bind_eq_ok.mp h
    obtain ⟨tail, htail, ⟨⟩⟩ := bind_eq_ok.mp h
    obtain ⟨hv, rfl⟩ := symbol_of_valueAt hp
    obtain ⟨hw, rfl⟩ := symbol_of_valueAt hq
    obtain ⟨hu, rfl⟩ := symbol_of_valueAt hr
    obtain ⟨hy, rfl⟩ := symbol_of_valueAt hs
    rw [encodeBytes_of_four_symbols hv hw hu hy rfl, ← ih htail]
    rfl
  | case2 offset rest hshort =>
    rw [decodeGroups] at h
    · obtain ⟨g, hg, h⟩ := bind_eq_ok.mp h
      obtain ⟨vs, count, hrest, hvs, hvalues, hpadding, -⟩ := readLastGroup_eq_ok hg
      have hplaces : rest.length ≤ 4 := by
        rcases rest with _ | ⟨p, _ | ⟨q, _ | ⟨r, _ | ⟨s, _ | ⟨t, rest⟩⟩⟩⟩⟩
        case cons.cons.cons.cons.cons => exact absurd rfl (hshort p q r s t rest)
        all_goals simp
      rw [List.nil_append] at hvalues
      rw [Nat.zero_add] at hpadding
      rw [encodeBytes_of_finishGroup h (by rwa [hvalues]), hvalues, hpadding, hrest]
      rw [hrest] at hplaces
      rw [hvalues, hpadding]
      simpa using hplaces
    · exact hshort

theorem eq_encodeBytes_of_decodeBytes (h : decodeBytes a input = .ok b) : input = encodeBytes a b := by
  cases input with
  | nil =>
    cases h
    rfl
  | cons x rest =>
    simp only [decodeBytes] at h
    split at h
    · cases h
    · exact eq_encodeBytes_of_decodeGroups h

/-- **A text is read as the bytes that are written as this text**, and as nothing else. -/
theorem decode_eq_ok_iff {s : String} : decode a s = .ok b ↔ s = encode a b := by
  constructor
  · intro h
    have hbytes : Bytes.ofText s = Bytes.ofText (encode a b) := by
      rw [encode, Bytes.ofText_ofList_map fun _ => lt_of_mem_encodeBytes]
      exact eq_encodeBytes_of_decodeBytes h
    have htexts := congrArg Bytes.text? hbytes
    rw [Bytes.text?_ofText, Bytes.text?_ofText] at htexts
    exact Option.some.inj htexts
  · rintro rfl
    exact decode_encode a b

/-- A text that reads under the URL alphabet is made of its symbols: no padding is written there, and none is read. -/
theorem notMem_of_decode {s : String} {c : Char} (h : decode .url s = .ok b)
    (hsymbol : ∀ n < 64, Char.ofNat (Alphabet.url.symbol n).toNat ≠ c) : c ∉ s.toList := by
  rw [decode_eq_ok_iff.mp h]
  intro hmem
  exact forall_mem_encode (p := (· ≠ c)) hsymbol nofun b c hmem rfl

theorem padding_notMem_of_decode {s : String} (h : decode .url s = .ok b) : '=' ∉ s.toList :=
  notMem_of_decode h (by decide +kernel)

theorem dot_notMem_of_decode {s : String} (h : decode .url s = .ok b) : '.' ∉ s.toList :=
  notMem_of_decode h (by decide +kernel)

end DeviceTrust.Base64
