import DeviceTrust.Text.Blank

/-!
# The parts of a text

Splitting loses nothing but the separators, and leaves none inside a part. So parts without the
separator that are joined by it are found again.
-/

namespace DeviceTrust.Text

variable {sep : Char} {cs part : List Char} {s : String}

theorem intercalate_splitChars (sep : Char) (cs : List Char) : [sep].intercalate (splitChars sep cs) = cs := by
  induction cs with
  | nil => rfl
  | cons c rest ih =>
    cases hsplit : splitChars sep rest with
    | nil => exact absurd hsplit (splitChars_ne_nil sep rest)
    | cons part parts =>
      rw [hsplit] at ih
      rw [splitChars, hsplit]
      simp only
      split
      · rename_i hc
        obtain rfl := beq_iff_eq.mp hc
        rw [List.intercalate_cons_cons, ih]
        rfl
      · cases parts with
        | nil => rw [List.intercalate_singleton] at ih ⊢; rw [ih]
        | cons next parts =>
          rw [List.intercalate_cons_cons] at ih ⊢
          rw [List.cons_append, List.cons_append, ih]

theorem notMem_of_mem_splitChars (h : part ∈ splitChars sep cs) : sep ∉ part := by
  induction cs generalizing part with
  | nil =>
    obtain rfl := List.mem_singleton.mp h
    exact List.not_mem_nil
  | cons c rest ih =>
    cases hsplit : splitChars sep rest with
    | nil => exact absurd hsplit (splitChars_ne_nil sep rest)
    | cons first parts =>
      rw [hsplit] at ih
      rw [splitChars, hsplit] at h
      simp only at h
      split at h
      · rcases List.mem_cons.mp h with rfl | h
        · exact List.not_mem_nil
        · exact ih h
      · rename_i hc
        rcases List.mem_cons.mp h with rfl | h
        · intro hmem
          rcases List.mem_cons.mp hmem with rfl | hmem
          · exact hc (beq_self_eq_true sep)
          · exact ih List.mem_cons_self hmem
        · exact ih (List.mem_cons_of_mem _ h)

theorem notMem_of_mem_split {s a : String} (h : a ∈ split sep s) : sep ∉ a.toList := by
  obtain ⟨part, hpart, rfl⟩ := List.mem_map.mp h
  rw [String.toList_ofList]
  exact notMem_of_mem_splitChars hpart

theorem splitChars_append (h : sep ∉ part) (rest : List Char) :
    splitChars sep (part ++ sep :: rest) = part :: splitChars sep rest := by
  induction part with
  | nil =>
    rw [List.nil_append, splitChars]
    cases hsplit : splitChars sep rest with
    | nil => exact absurd hsplit (splitChars_ne_nil sep rest)
    | cons next parts => exact if_pos (beq_self_eq_true sep)
  | cons c part ih =>
    rw [List.mem_cons, not_or] at h
    have hc : ¬ (c == sep) = true := fun hc => h.1 (beq_iff_eq.mp hc).symm
    rw [List.cons_append, splitChars, ih h.2]
    exact if_neg hc

theorem splitChars_of_notMem (h : sep ∉ cs) : splitChars sep cs = [cs] := by
  induction cs with
  | nil => rfl
  | cons c rest ih =>
    rw [List.mem_cons, not_or] at h
    have hc : ¬ (c == sep) = true := fun hc => h.1 (beq_iff_eq.mp hc).symm
    rw [splitChars, ih h.2]
    exact if_neg hc

/-- The pieces of a text: none of them has the separator in it, and joined by it they give the text. -/
structure Pieces (sep : Char) (s : String) (pieces : List String) : Prop where
  nonempty : pieces ≠ []
  apart : ∀ p ∈ pieces, sep ∉ p.toList
  joined : (String.singleton sep).intercalate pieces = s

theorem splitChars_intercalate {parts : List (List Char)} (hne : parts ≠ []) (h : ∀ part ∈ parts, sep ∉ part) :
    splitChars sep ([sep].intercalate parts) = parts := by
  induction parts with
  | nil => exact absurd rfl hne
  | cons part rest ih =>
    obtain ⟨hpart, hrest⟩ := List.forall_mem_cons.mp h
    cases rest with
    | nil => rw [List.intercalate_singleton, splitChars_of_notMem hpart]
    | cons next rest =>
      rw [List.intercalate_cons_cons, List.append_assoc, List.singleton_append, splitChars_append hpart,
        ih (List.cons_ne_nil _ _) hrest]

/-- **A text has exactly one list of pieces.** -/
theorem pieces_iff {pieces : List String} : Pieces sep s pieces ↔ split sep s = pieces := by
  constructor
  · rintro ⟨hne, hapart, rfl⟩
    have hparts : ∀ part ∈ pieces.map String.toList, sep ∉ part := by
      intro part hpart
      obtain ⟨piece, hpiece, rfl⟩ := List.mem_map.mp hpart
      exact hapart piece hpiece
    rw [split, String.toList_intercalate, String.toList_singleton,
      splitChars_intercalate (fun hnil => hne (List.map_eq_nil_iff.mp hnil)) hparts, List.map_map]
    simp
  · rintro rfl
    refine ⟨fun hnil => splitChars_ne_nil _ _ (List.map_eq_nil_iff.mp hnil), fun p hp => notMem_of_mem_split hp, ?_⟩
    rw [← String.toList_inj, String.toList_intercalate, String.toList_singleton, split, List.map_map]
    simp [Function.comp_def, intercalate_splitChars]

/-- A text of three parts has two separators, and none inside its parts. -/
theorem split_eq_three {a b c : String} (h : split sep s = [a, b, c]) :
    s.toList = a.toList ++ sep :: (b.toList ++ sep :: c.toList) ∧ sep ∉ b.toList ∧ sep ∉ c.toList := by
  obtain ⟨-, hapart, rfl⟩ := pieces_iff.mpr h
  refine ⟨?_, hapart b (by simp), hapart c (by simp)⟩
  rw [String.toList_intercalate, String.toList_singleton]
  simp [List.intercalate_cons_cons, List.intercalate_singleton]

theorem split_three {a b c : String} (ha : sep ∉ a.toList) (hb : sep ∉ b.toList) (hc : sep ∉ c.toList) :
    split sep (a ++ String.singleton sep ++ b ++ String.singleton sep ++ c) = [a, b, c] := by
  refine pieces_iff.mp ⟨List.cons_ne_nil _ _, by simp [ha, hb, hc], ?_⟩
  rw [← String.toList_inj, String.toList_intercalate, String.toList_singleton]
  simp [List.intercalate_cons_cons, List.intercalate_singleton]

/-- Nothing is dropped from the end of a text without such characters. -/
theorem dropWhileEnd_eq_self {p : Char → Bool} (h : ∀ c ∈ cs, p c = false) : dropWhileEnd p cs = cs := by
  rw [dropWhileEnd]
  cases hrev : cs.reverse with
  | nil => rw [List.reverse_eq_nil_iff.mp hrev]; rfl
  | cons last rest =>
    have hlast : last ∈ cs := List.mem_reverse.mp (hrev ▸ List.mem_cons_self)
    rw [List.dropWhile_cons_of_neg (by rw [h last hlast]; exact Bool.false_ne_true), ← hrev, List.reverse_reverse]

/-- What is dropped from the end of a text is one sign, any number of times. -/
theorem exists_dropped (sign : Char) (cs : List Char) :
    ∃ n, cs = dropWhileEnd (· == sign) cs ++ List.replicate n sign := by
  have hsigns : ∀ c ∈ cs.reverse.takeWhile (· == sign), c = sign := fun c hc =>
    beq_iff_eq.mp (List.all_eq_true.mp List.all_takeWhile c hc)
  refine ⟨(cs.reverse.takeWhile (· == sign)).length, ?_⟩
  rw [← List.reverse_replicate, ← List.eq_replicate_of_mem hsigns, dropWhileEnd, ← List.reverse_append,
    List.takeWhile_append_dropWhile, List.reverse_reverse]

end DeviceTrust.Text
