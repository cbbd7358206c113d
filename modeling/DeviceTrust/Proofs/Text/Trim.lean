import DeviceTrust.Text.Blank
import Mathlib.Data.List.DropRight
import Mathlib.Data.List.TakeWhile

/-!
# Trimmed texts

Trimming a text a second time changes nothing, so it does not matter how many of the places that a
text passes through trim it. Nor does it matter what blanks were around a text, or which of them some
other place has dropped before.
-/

namespace DeviceTrust.Text

variable {p : Char → Bool} {cs blanks : List Char} {s : String}

def Blank (s : String) : Prop := ∀ c ∈ s.toList, isBlank c = true

instance (s : String) : Decidable (Blank s) := decidable_of_iff (s.toList.all isBlank = true) List.all_eq_true

theorem blank_empty : Blank "" := fun _ hc => absurd hc List.not_mem_nil

/-- A text with no blank character at its start or its end. -/
structure Trimmed (s : String) : Prop where
  start : ∀ c ∈ s.toList.head?, isBlank c = false
  stop : ∀ c ∈ s.toList.getLast?, isBlank c = false

instance (s : String) : Decidable (Trimmed s) :=
  decidable_of_iff (s.toList.head?.any isBlank = false ∧ s.toList.getLast?.any isBlank = false) <|
    ((Option.any_eq_false _ _).and (Option.any_eq_false _ _)).trans
      ⟨fun h => ⟨h.1, h.2⟩, fun h => ⟨h.start, h.stop⟩⟩

theorem trimChars_trimChars (cs : List Char) : trimChars (trimChars cs) = trimChars cs := by
  have hstart : (trimChars cs).dropWhile isBlank = trimChars cs := by
    -- what is dropped at the end leaves the first character where it was, and that is not blank
    obtain ⟨blanks, hblanks⟩ : trimChars cs <+: cs.dropWhile isBlank := List.rdropWhile_prefix isBlank _
    apply List.dropWhile_eq_self_iff.mpr
    intro hpos hblank
    have hlength : 0 < (cs.dropWhile isBlank).length := by
      rw [← hblanks, List.length_append]
      omega
    have hfirst : (cs.dropWhile isBlank)[0] = (trimChars cs)[0] := by
      simp only [← hblanks, List.getElem_append_left hpos]
    have hnot := List.dropWhile_eq_self_iff.mp (List.dropWhile_idempotent (p := isBlank) (l := cs)) hlength
    rw [hfirst] at hnot
    exact hnot hblank
  calc trimChars (trimChars cs)
      = dropWhileEnd isBlank (trimChars cs) := congrArg (dropWhileEnd isBlank) hstart
    _ = trimChars cs := List.rdropWhile_idempotent isBlank (cs.dropWhile isBlank)

theorem trim_trim (s : String) : trim (trim s) = trim s := by
  rw [trim, trim, String.toList_ofList, trimChars_trimChars]

theorem nonBlank?_of_isSome {s : String} (h : (nonBlank? s).isSome = true) : nonBlank? s = some (trim s) := by
  simp only [nonBlank?] at h ⊢
  split
  · rename_i hempty
    rw [if_pos hempty] at h
    cases h
  · rfl

theorem ne_empty_of_nonBlank {s : String} (h : (nonBlank? s).isSome = true) : s ≠ "" := by
  rintro rfl
  revert h
  decide

theorem dropWhileEnd_append (h : ∀ c ∈ blanks, p c = true) : dropWhileEnd p (cs ++ blanks) = dropWhileEnd p cs := by
  have hreverse : ∀ c ∈ blanks.reverse, p c = true := fun c hc => h c (List.mem_reverse.mp hc)
  rw [dropWhileEnd, List.reverse_append, List.dropWhile_append_of_pos hreverse, dropWhileEnd]

theorem trimChars_blank_append (h : ∀ c ∈ blanks, isBlank c = true) : trimChars (blanks ++ cs) = trimChars cs := by
  rw [trimChars, List.dropWhile_append_of_pos h, trimChars]

theorem trimChars_append_blank (h : ∀ c ∈ blanks, isBlank c = true) : trimChars (cs ++ blanks) = trimChars cs := by
  rw [trimChars, trimChars, List.dropWhile_append]
  split
  · rename_i hempty
    rw [List.isEmpty_iff.mp hempty, List.dropWhile_eq_nil_iff.mpr h]
  · exact dropWhileEnd_append h

theorem trim_surrounded {before text after : String} (hbefore : ∀ c ∈ before.toList, isBlank c = true)
    (hafter : ∀ c ∈ after.toList, isBlank c = true) : trim (before ++ text ++ after) = trim text := by
  rw [trim, String.toList_append, String.toList_append, trimChars_append_blank hafter, trimChars_blank_append hbefore,
    trim]

/-- Where only some of the blanks at the end have been dropped, trimming drops the others. -/
theorem trimChars_dropWhileEnd (hp : ∀ c, p c = true → isBlank c = true) :
    trimChars (dropWhileEnd p cs) = trimChars cs := by
  have hwhole : dropWhileEnd p cs ++ (cs.reverse.takeWhile p).reverse = cs := by
    rw [dropWhileEnd, ← List.reverse_append, List.takeWhile_append_dropWhile, List.reverse_reverse]
  have hdropped : ∀ c ∈ (cs.reverse.takeWhile p).reverse, isBlank c = true := by
    intro c hc
    exact hp c (List.all_eq_true.mp List.all_takeWhile c (List.mem_reverse.mp hc))
  rw [← trimChars_append_blank hdropped, hwhole]

theorem exists_surrounded (s : String) :
    ∃ before after, Blank before ∧ Blank after ∧ s = before ++ trim s ++ after := by
  refine ⟨String.ofList (s.toList.takeWhile isBlank),
    String.ofList ((s.toList.dropWhile isBlank).rtakeWhile isBlank), ?_, ?_, ?_⟩
  · intro c hc
    rw [String.toList_ofList] at hc
    exact List.mem_takeWhile_imp hc
  · intro c hc
    rw [String.toList_ofList] at hc
    exact List.mem_rtakeWhile_imp hc
  · have hdropped :
        trimChars s.toList ++ (s.toList.dropWhile isBlank).rtakeWhile isBlank = s.toList.dropWhile isBlank :=
      List.rdropWhile_append_rtakeWhile
    rw [← String.toList_inj, String.toList_append, String.toList_append, String.toList_ofList, trim,
      String.toList_ofList, String.toList_ofList, List.append_assoc, hdropped, List.takeWhile_append_dropWhile]

theorem trim_eq_empty_iff : trim s = "" ↔ Blank s := by
  constructor
  · intro h c hc
    obtain ⟨before, after, hbefore, hafter, hs⟩ := exists_surrounded s
    rw [hs, h, String.append_empty, String.toList_append] at hc
    exact (List.mem_append.mp hc).elim (hbefore c) (hafter c)
  · intro h
    rw [trim, trimChars, List.dropWhile_eq_nil_iff.mpr h]
    rfl

theorem nonBlank?_of_blank (h : Blank s) : nonBlank? s = none := by
  rw [nonBlank?, trim_eq_empty_iff.mpr h]
  rfl

theorem nonBlank?_of_not_blank (h : ¬ Blank s) : nonBlank? s = some (trim s) := by
  rw [nonBlank?]
  exact if_neg fun hempty => h (trim_eq_empty_iff.mp (String.isEmpty_iff.mp hempty))

/-- There is nothing to trim on a text that has no blanks around it. -/
theorem Trimmed.trim_eq (h : Trimmed s) : trim s = s := by
  have hstart : s.toList.dropWhile isBlank = s.toList := by
    cases hs : s.toList with
    | nil => rfl
    | cons c rest =>
      have hc := h.start c (by rw [hs]; rfl)
      exact List.dropWhile_cons_of_neg (by rw [hc]; exact Bool.false_ne_true)
  have hstop : dropWhileEnd isBlank s.toList = s.toList := by
    refine List.rdropWhile_eq_self_iff.mpr fun hne => ?_
    rw [h.stop _ (List.getLast_mem_getLast? hne)]
    exact Bool.false_ne_true
  rw [trim, trimChars, hstart, hstop, String.ofList_toList]

theorem trim_eq_self (h : ∀ c ∈ s.toList, isBlank c = false) : trim s = s :=
  Trimmed.trim_eq ⟨fun c hc => h c (List.mem_of_mem_head? hc), fun c hc => h c (List.mem_of_mem_getLast? hc)⟩

end DeviceTrust.Text
