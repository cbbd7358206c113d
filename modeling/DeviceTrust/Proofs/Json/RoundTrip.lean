import DeviceTrust.Proofs.Json.Grammar
import DeviceTrust.Proofs.Json.Integer

/-!
# Written documents are read back

Texts and integers, and lists and records of what is written. The compact layout of each is a value of the
grammar that says what was written, without a blank anywhere, and the reader reads all of the grammar.
-/

namespace DeviceTrust.Json

variable {v : Json} {items : List Json} {members : List (String × Json)}

inductive Written : Json → Prop where
  | text (s : String) : Written (text s)
  | integer (n : Int) : Written (integer n)
  | array {items : List Json} (h : ∀ v ∈ items, Written v) : Written (.array items)
  | record {members : List (String × Json)} (h : ∀ m ∈ members, Written m.2) : Written (record members)

/-- The members of a record as an object has them. -/
def spelled (members : List (String × Json)) : List (Bytes × Json) := members.map fun (k, v) => (spell k, v)

theorem ValueText.document {text : Bytes} (h : ValueText text v) : DocumentText text v := by
  simpa using DocumentText.intro blank_nil blank_nil h

theorem nameText_spell (s : String) : NameText (printString (spell s)) (spell s) :=
  NameText.intro blank_nil blank_nil (spelling_spell s)

/-- Items are written in the grammar where each of them is, up to the closing bracket. -/
theorem exists_itemsText (hne : items ≠ []) (hitems : ∀ v ∈ items, ValueText (print v) v) :
    ∃ text, ItemsText text items ∧ printItems items = text ++ [0x5d] := by
  induction items with
  | nil => exact absurd rfl hne
  | cons v more ih =>
    have hv := (hitems v List.mem_cons_self).document
    cases more with
    | nil => exact ⟨_, .last hv, rfl⟩
    | cons w vs =>
      obtain ⟨text, htext, hprint⟩ := ih (List.cons_ne_nil w vs) fun x hx => hitems x (List.mem_cons_of_mem v hx)
      refine ⟨_, .more hv htext, ?_⟩
      rw [printItems, hprint, List.append_assoc, List.cons_append]

/-- Members are written in the grammar where their values are, up to the closing brace. -/
theorem exists_membersText (hne : members ≠ []) (hmembers : ∀ m ∈ members, ValueText (print m.2) m.2) :
    ∃ text, MembersText text (spelled members) ∧ printMembers (spelled members) = text ++ [0x7d] := by
  induction members with
  | nil => exact absurd rfl hne
  | cons m more ih =>
    have hv := (hmembers m List.mem_cons_self).document
    cases more with
    | nil => exact ⟨_, .last (nameText_spell m.1) hv, rfl⟩
    | cons m' ms =>
      obtain ⟨text, htext, hprint⟩ := ih (List.cons_ne_nil m' ms) fun x hx => hmembers x (List.mem_cons_of_mem m hx)
      refine ⟨_, .more (nameText_spell m.1) hv htext, ?_⟩
      simp only [spelled, List.map_cons] at hprint ⊢
      rw [printMembers, hprint]
      simp only [List.append_assoc, List.cons_append]

theorem Written.valueText (h : Written v) : ValueText (print v) v := by
  induction h with
  | text s => exact .string (spelling_spell s)
  | integer n => exact .number (numberText_ofInt n)
  | @array items _ ih =>
    cases items with
    | nil => exact .emptyArray blank_nil
    | cons v vs =>
      obtain ⟨text, htext, hprint⟩ := exists_itemsText (List.cons_ne_nil v vs) ih
      rw [print, hprint]
      exact .array htext
  | @record members _ ih =>
    cases members with
    | nil => exact .emptyObject blank_nil
    | cons m ms =>
      obtain ⟨text, htext, hprint⟩ := exists_membersText (List.cons_ne_nil m ms) ih
      have hrecord : print (Json.record (m :: ms)) = 0x7b :: printMembers (spelled (m :: ms)) := rfl
      rw [hrecord, hprint]
      exact .object htext

/-- **A written document is read back as it was.** -/
theorem Written.read_print (h : Written v) : read (print v) = some v := read_eq_some_iff.mpr h.valueText.document

end DeviceTrust.Json
