import DeviceTrust.Proofs.Json.Number
import DeviceTrust.Proofs.Json.Spelling

/-!
# The grammar of documents

A document is a value with blanks around it, and so are the items of an array and the values of an
object's members. The reader skips blanks before a value and leaves those behind it to whoever looks
for the next byte, so the two agree byte for byte: what is read is a document of the grammar, and every
document of the grammar is read as what it says. Each value costs the reader at most two steps a byte, and
the steps that the length of the input allows are enough.
-/

namespace DeviceTrust.Json

variable {v : Json} {vs : List Json} {ms : List (Bytes × Json)} {b : UInt8} {steps : Nat}
  {sp text before after input rest : Bytes}

def Blank (text : Bytes) : Prop := ∀ b ∈ text, b ∈ [0x20, 0x09, 0x0a, 0x0d]

theorem isBlank_iff (b : UInt8) : isBlank b = true ↔ b ∈ [0x20, 0x09, 0x0a, 0x0d] := by
  simp [isBlank, or_assoc]

theorem blank_nil : Blank [] := nofun

theorem Blank.append (hbefore : Blank before) (hafter : Blank after) : Blank (before ++ after) := fun b hb =>
  (List.mem_append.mp hb).elim (hbefore b) (hafter b)

theorem skipBlank_append (h : Blank before) (rest : Bytes) : skipBlank (before ++ rest) = skipBlank rest :=
  List.dropWhile_append_of_pos fun b hb => (isBlank_iff b).mpr (h b hb)

theorem skipBlank_cons (h : isBlank b = false) : skipBlank (b :: rest) = b :: rest :=
  List.dropWhile_cons_of_neg (by rw [h]; exact Bool.false_ne_true)

theorem exists_blank (input : Bytes) : ∃ before, Blank before ∧ input = before ++ skipBlank input := by
  refine ⟨input.takeWhile isBlank, fun b hb => ?_, List.takeWhile_append_dropWhile.symm⟩
  exact (isBlank_iff b).mp (List.all_eq_true.mp List.all_takeWhile b hb)

theorem isBlank_of_skipBlank (h : skipBlank input = b :: rest) : isBlank b = false := by
  have hhead := List.head?_dropWhile_not isBlank input
  rw [show input.dropWhile isBlank = b :: rest from h] at hhead
  exact hhead

theorem skipBlank_skipBlank (input : Bytes) : skipBlank (skipBlank input) = skipBlank input := by
  obtain ⟨before, hbefore, hinput⟩ := exists_blank input
  rw [← skipBlank_append hbefore, ← hinput]

/-- Blanks and what begins with none do not go on with a number. -/
theorem Blank.delimited (h : Blank before) (hrest : Delimited rest) : Delimited (before ++ rest) := by
  cases before with
  | nil => exact hrest
  | cons b before =>
    have hall : ∀ b : UInt8, isBlank b = true → isDigit b = false ∧ b ≠ 0x2e ∧ b ≠ 0x65 ∧ b ≠ 0x45 :=
      Bytes.forall_byte (by decide +kernel)
    exact delimited_cons (hall b ((isBlank_iff b).mpr (h b List.mem_cons_self)))

/-- The name of a member, between quotes and with blanks around it. -/
inductive NameText : Bytes → Bytes → Prop where
  | intro {before sp after : Bytes} (hbefore : Blank before) (hafter : Blank after) (h : Spelling sp) :
    NameText (before ++ 0x22 :: (sp ++ 0x22 :: after)) sp

mutual

inductive ValueText : Bytes → Json → Prop where
  | null : ValueText (Bytes.ofText "null") .null
  | bool (value : Bool) : ValueText (Bytes.ofText (if value then "true" else "false")) (.bool value)
  | number {text : Bytes} {n : Number} (h : NumberText text n) : ValueText text (.number n)
  | string {sp : Bytes} (h : Spelling sp) : ValueText (0x22 :: (sp ++ [0x22])) (.string sp)
  | emptyArray {blanks : Bytes} (h : Blank blanks) : ValueText (0x5b :: (blanks ++ [0x5d])) (.array [])
  | array {text : Bytes} {vs : List Json} (h : ItemsText text vs) : ValueText (0x5b :: (text ++ [0x5d])) (.array vs)
  | emptyObject {blanks : Bytes} (h : Blank blanks) : ValueText (0x7b :: (blanks ++ [0x7d])) (.object [])
  | object {text : Bytes} {ms : List (Bytes × Json)} (h : MembersText text ms) :
    ValueText (0x7b :: (text ++ [0x7d])) (.object ms)

/-- A document: a value with nothing but blanks around it. -/
inductive DocumentText : Bytes → Json → Prop where
  | intro {before text after : Bytes} {v : Json} (hbefore : Blank before) (hafter : Blank after)
    (h : ValueText text v) : DocumentText (before ++ (text ++ after)) v

inductive ItemsText : Bytes → List Json → Prop where
  | last {text : Bytes} {v : Json} (h : DocumentText text v) : ItemsText text [v]
  | more {text more : Bytes} {v : Json} {vs : List Json} (h : DocumentText text v) (hmore : ItemsText more vs) :
    ItemsText (text ++ 0x2c :: more) (v :: vs)

inductive MembersText : Bytes → List (Bytes × Json) → Prop where
  | last {name sp text : Bytes} {v : Json} (hname : NameText name sp) (h : DocumentText text v) :
    MembersText (name ++ 0x3a :: text) [(sp, v)]
  | more {name sp text more : Bytes} {v : Json} {ms : List (Bytes × Json)} (hname : NameText name sp)
    (h : DocumentText text v) (hmore : MembersText more ms) :
    MembersText (name ++ 0x3a :: (text ++ 0x2c :: more)) ((sp, v) :: ms)

end

theorem NameText.blank_append (hbefore : Blank before) {name : Bytes} (h : NameText name sp) :
    NameText (before ++ name) sp := by
  obtain ⟨hfirst, hafter, h⟩ := h
  rw [← List.append_assoc]
  exact .intro (hbefore.append hfirst) hafter h

theorem DocumentText.blank_append (hbefore : Blank before) (h : DocumentText text v) :
    DocumentText (before ++ text) v := by
  obtain ⟨hfirst, hafter, h⟩ := h
  rw [← List.append_assoc]
  exact .intro (hbefore.append hfirst) hafter h

theorem ItemsText.blank_append (hbefore : Blank before) (h : ItemsText text vs) : ItemsText (before ++ text) vs := by
  cases h with
  | last h => exact .last (h.blank_append hbefore)
  | more h hmore =>
    rw [← List.append_assoc]
    exact .more (h.blank_append hbefore) hmore

theorem MembersText.blank_append (hbefore : Blank before) (h : MembersText text ms) :
    MembersText (before ++ text) ms := by
  cases h with
  | last hname h =>
    rw [← List.append_assoc]
    exact .last (hname.blank_append hbefore) h
  | more hname h hmore =>
    rw [← List.append_assoc]
    exact .more (hname.blank_append hbefore) h hmore

theorem readValue_skipBlank (steps : Nat) (input : Bytes) :
    readValue steps (skipBlank input) = readValue steps input := by
  cases steps with
  | zero => rfl
  | succ steps => rw [readValue, readValue, skipBlank_skipBlank]

theorem readItems_skipBlank (steps : Nat) (input : Bytes) :
    readItems steps (skipBlank input) = readItems steps input := by
  cases steps with
  | zero => rfl
  | succ steps => rw [readItems, readItems, readValue_skipBlank]

theorem readMembers_skipBlank (steps : Nat) (input : Bytes) :
    readMembers steps (skipBlank input) = readMembers steps input := by
  cases steps with
  | zero => rfl
  | succ steps => rw [readMembers, readMembers, skipBlank_skipBlank]

theorem readWord_eq_some_iff {word : String} : readWord word input = some rest ↔ input = Bytes.ofText word ++ rest := by
  rw [readWord, Option.ite_none_right_eq_some]
  constructor
  · rintro ⟨htake, ⟨⟩⟩
    exact (List.take_append_drop _ input).symm.trans (by rw [htake])
  · rintro rfl
    exact ⟨List.take_left' rfl, congrArg some (List.drop_left' rfl)⟩

/-- What the readers take off the input in a number of steps is of the grammar. -/
structure Sound (steps : Nat) : Prop where
  value : ∀ {input v rest}, readValue steps input = some (v, rest) →
    ∃ before text, Blank before ∧ ValueText text v ∧ input = before ++ (text ++ rest)
  items : ∀ {input vs rest}, readItems steps input = some (vs, rest) →
    ∃ text, ItemsText text vs ∧ input = text ++ 0x5d :: rest
  members : ∀ {input ms rest}, readMembers steps input = some (ms, rest) →
    ∃ text, MembersText text ms ∧ input = text ++ 0x7d :: rest

theorem Sound.document (h : Sound steps) (hread : readValue steps input = some (v, rest)) {b : UInt8} {left : Bytes}
    (hskip : skipBlank rest = b :: left) : ∃ text, DocumentText text v ∧ input = text ++ b :: left := by
  obtain ⟨before, text, hbefore, htext, rfl⟩ := h.value hread
  obtain ⟨after, hafter, hrest⟩ := exists_blank rest
  refine ⟨_, .intro hbefore hafter htext, ?_⟩
  rw [hrest, hskip]
  simp only [List.append_assoc]

theorem Sound.readItems_succ (h : Sound steps) (hread : readItems (steps + 1) input = some (vs, rest)) :
    ∃ text, ItemsText text vs ∧ input = text ++ 0x5d :: rest := by
  rw [readItems] at hread
  split at hread
  · cases hread
  · rename_i v left hvalue
    split at hread
    · rename_i hskip
      cases hread
      obtain ⟨text, htext, rfl⟩ := h.document hvalue hskip
      exact ⟨text, .last htext, rfl⟩
    · rename_i more hskip
      obtain ⟨⟨vs, rest⟩, hmore, ⟨⟩⟩ := Option.map_eq_some_iff.mp hread
      obtain ⟨text, htext, rfl⟩ := h.document hvalue hskip
      obtain ⟨moreText, hmoreText, rfl⟩ := h.items hmore
      exact ⟨_, .more htext hmoreText, by simp⟩
    · cases hread

theorem Sound.readMembers_succ (h : Sound steps) (hread : readMembers (steps + 1) input = some (ms, rest)) :
    ∃ text, MembersText text ms ∧ input = text ++ 0x7d :: rest := by
  obtain ⟨before, hbefore, hinput⟩ := exists_blank input
  rw [readMembers] at hread
  split at hread
  · rename_i afterQuote hquote
    split at hread
    · cases hread
    · rename_i sp left hspelling
      obtain ⟨hsp, rfl⟩ := spelling_of_readSpelling hspelling
      obtain ⟨after, hafter, hleft⟩ := exists_blank left
      split at hread
      · rename_i afterColon hcolon
        have hname : NameText (before ++ 0x22 :: (sp ++ 0x22 :: after)) sp := .intro hbefore hafter hsp
        have hfront : input = before ++ 0x22 :: (sp ++ 0x22 :: after) ++ 0x3a :: afterColon := by
          rw [hinput, hquote, hleft, hcolon]
          simp
        rw [hfront]
        split at hread
        · cases hread
        · rename_i v left hvalue
          split at hread
          · rename_i hskip
            cases hread
            obtain ⟨text, htext, rfl⟩ := h.document hvalue hskip
            exact ⟨_, .last hname htext, by simp⟩
          · rename_i more hskip
            obtain ⟨⟨ms, rest⟩, hmore, ⟨⟩⟩ := Option.map_eq_some_iff.mp hread
            obtain ⟨text, htext, rfl⟩ := h.document hvalue hskip
            obtain ⟨moreText, hmoreText, rfl⟩ := h.members hmore
            exact ⟨_, .more hname htext hmoreText, by simp⟩
          · cases hread
      · cases hread
  · cases hread

theorem Sound.readValue_cons (h : Sound steps) (hblank : isBlank b = false)
    (hread : readValue (steps + 1) (b :: input) = some (v, rest)) :
    ∃ text, ValueText text v ∧ b :: input = text ++ rest := by
  rw [readValue, skipBlank_cons hblank] at hread
  simp only at hread
  obtain ⟨blanks, hblanks, hinput⟩ := exists_blank input
  -- the first byte says what the value is: a string, an object, an array, one of the words, or else a number
  split at hread
  · rename_i hb
    obtain ⟨⟨sp, left⟩, hspelling, ⟨⟩⟩ := Option.map_eq_some_iff.mp hread
    obtain ⟨hsp, rfl⟩ := spelling_of_readSpelling hspelling
    exact ⟨_, .string hsp, by simp [hb]⟩
  split at hread
  · rename_i hb
    split at hread
    · rename_i left hskip
      cases hread
      exact ⟨_, .emptyObject hblanks, by rw [hinput, hskip]; simp [hb]⟩
    · obtain ⟨⟨ms, left⟩, hmembers, ⟨⟩⟩ := Option.map_eq_some_iff.mp hread
      obtain ⟨text, htext, hmore⟩ := h.members hmembers
      exact ⟨_, .object (htext.blank_append hblanks), by rw [hinput, hmore]; simp [hb]⟩
  split at hread
  · rename_i hb
    split at hread
    · rename_i left hskip
      cases hread
      exact ⟨_, .emptyArray hblanks, by rw [hinput, hskip]; simp [hb]⟩
    · obtain ⟨⟨vs, left⟩, hitems, ⟨⟩⟩ := Option.map_eq_some_iff.mp hread
      obtain ⟨text, htext, hmore⟩ := h.items hitems
      exact ⟨_, .array (htext.blank_append hblanks), by rw [hinput, hmore]; simp [hb]⟩
  split at hread
  · rename_i hb
    obtain ⟨left, hword, ⟨⟩⟩ := Option.map_eq_some_iff.mp hread
    exact ⟨_, .null, by rw [readWord_eq_some_iff.mp hword, hb]; rfl⟩
  split at hread
  · rename_i hb
    obtain ⟨left, hword, ⟨⟩⟩ := Option.map_eq_some_iff.mp hread
    exact ⟨_, .bool true, by rw [readWord_eq_some_iff.mp hword, hb]; rfl⟩
  split at hread
  · rename_i hb
    obtain ⟨left, hword, ⟨⟩⟩ := Option.map_eq_some_iff.mp hread
    exact ⟨_, .bool false, by rw [readWord_eq_some_iff.mp hword, hb]; rfl⟩
  · obtain ⟨⟨n, left⟩, hnumber, ⟨⟩⟩ := Option.map_eq_some_iff.mp hread
    obtain ⟨text, htext, hmore⟩ := numberText_of_readNumber hnumber
    exact ⟨text, .number htext, hmore⟩

theorem Sound.readValue_succ (h : Sound steps) (hread : readValue (steps + 1) input = some (v, rest)) :
    ∃ before text, Blank before ∧ ValueText text v ∧ input = before ++ (text ++ rest) := by
  obtain ⟨before, hbefore, hinput⟩ := exists_blank input
  rw [← readValue_skipBlank] at hread
  cases hskip : skipBlank input with
  | nil =>
    rw [hskip] at hread
    cases hread
  | cons b more =>
    rw [hskip] at hread hinput
    obtain ⟨text, htext, hmore⟩ := h.readValue_cons (isBlank_of_skipBlank hskip) hread
    exact ⟨before, text, hbefore, htext, by rw [hinput, hmore]⟩

theorem sound (steps : Nat) : Sound steps := by
  induction steps with
  | zero => exact ⟨nofun, nofun, nofun⟩
  | succ steps ih => exact ⟨ih.readValue_succ, ih.readItems_succ, ih.readMembers_succ⟩

theorem ValueText.head (h : ValueText text v) : ∃ b more, text = b :: more ∧ isBlank b = false ∧ b ≠ 0x5d := by
  cases h with
  | null => exact ⟨0x6e, _, rfl, rfl, by decide⟩
  | bool value =>
    cases value with
    | true => exact ⟨0x74, _, rfl, rfl, by decide⟩
    | false => exact ⟨0x66, _, rfl, rfl, by decide⟩
  | number h =>
    obtain ⟨b, more, rfl, hhead⟩ := h.head
    obtain ⟨hblank, hclose, -⟩ := begins_number hhead
    exact ⟨b, more, rfl, hblank, hclose⟩
  | string => exact ⟨0x22, _, rfl, rfl, by decide⟩
  | emptyArray => exact ⟨0x5b, _, rfl, rfl, by decide⟩
  | array => exact ⟨0x5b, _, rfl, rfl, by decide⟩
  | emptyObject => exact ⟨0x7b, _, rfl, rfl, by decide⟩
  | object => exact ⟨0x7b, _, rfl, rfl, by decide⟩

theorem DocumentText.head (h : DocumentText text v) (rest : Bytes) :
    ∃ b more, skipBlank (text ++ rest) = b :: more ∧ b ≠ 0x5d := by
  obtain ⟨hbefore, -, h⟩ := h
  obtain ⟨b, more, rfl, hblank, hclose⟩ := h.head
  rw [List.append_assoc, skipBlank_append hbefore, List.cons_append, List.cons_append, skipBlank_cons hblank]
  exact ⟨b, _, rfl, hclose⟩

theorem ItemsText.head (h : ItemsText text vs) (rest : Bytes) :
    ∃ b more, skipBlank (text ++ rest) = b :: more ∧ b ≠ 0x5d := by
  cases h with
  | last h => exact h.head rest
  | more h _ =>
    rw [List.append_assoc]
    exact h.head _

theorem MembersText.head (h : MembersText text ms) (rest : Bytes) :
    ∃ more, skipBlank (text ++ rest) = 0x22 :: more := by
  have hname {name sp : Bytes} (h : NameText name sp) (rest : Bytes) :
      ∃ more, skipBlank (name ++ rest) = 0x22 :: more := by
    obtain ⟨hbefore, -, -⟩ := h
    rw [List.append_assoc, skipBlank_append hbefore, List.cons_append, skipBlank_cons rfl]
    exact ⟨_, rfl⟩
  cases h with
  | last h _ =>
    rw [List.append_assoc]
    exact hname h _
  | more h _ _ =>
    rw [List.append_assoc]
    exact hname h _

theorem ValueText.length_pos (h : ValueText text v) : 0 < text.length := by
  obtain ⟨b, more, rfl, -⟩ := h.head
  exact Nat.succ_pos _

theorem readValue_null (steps : Nat) (rest : Bytes) :
    readValue (steps + 1) (Bytes.ofText "null" ++ rest) = some (.null, rest) := by
  have hword : readWord "ull" (Bytes.ofText "ull" ++ rest) = some rest := readWord_eq_some_iff.mpr rfl
  change readValue (steps + 1) (0x6e :: (Bytes.ofText "ull" ++ rest)) = _
  rw [readValue, skipBlank_cons rfl]
  simp [hword]

theorem readValue_bool (value : Bool) (steps : Nat) (rest : Bytes) :
    readValue (steps + 1) (Bytes.ofText (if value then "true" else "false") ++ rest) = some (.bool value, rest) := by
  cases value with
  | true =>
    have hword : readWord "rue" (Bytes.ofText "rue" ++ rest) = some rest := readWord_eq_some_iff.mpr rfl
    change readValue (steps + 1) (0x74 :: (Bytes.ofText "rue" ++ rest)) = _
    rw [readValue, skipBlank_cons rfl]
    simp [hword]
  | false =>
    have hword : readWord "alse" (Bytes.ofText "alse" ++ rest) = some rest := readWord_eq_some_iff.mpr rfl
    change readValue (steps + 1) (0x66 :: (Bytes.ofText "alse" ++ rest)) = _
    rw [readValue, skipBlank_cons rfl]
    simp [hword]

theorem readValue_number {n : Number} (h : NumberText text n) (hrest : Delimited rest) (steps : Nat) :
    readValue (steps + 1) (text ++ rest) = some (.number n, rest) := by
  have hread := h.read hrest
  obtain ⟨b, more, rfl, hhead⟩ := h.head
  obtain ⟨hblank, -, hquote, hbrace, hbracket, hnull, htrue, hfalse⟩ := begins_number hhead
  rw [List.cons_append] at hread ⊢
  rw [readValue, skipBlank_cons hblank]
  simp only [if_neg hquote, if_neg hbrace, if_neg hbracket, if_neg hnull, if_neg htrue, if_neg hfalse, hread,
    Option.map_some]

theorem readValue_string (h : Spelling sp) (steps : Nat) (rest : Bytes) :
    readValue (steps + 1) (0x22 :: (sp ++ 0x22 :: rest)) = some (.string sp, rest) := by
  rw [readValue, skipBlank_cons rfl]
  simp only [if_true, h.read, Option.map_some]

theorem readValue_bracket (steps : Nat) (rest : Bytes) :
    readValue (steps + 1) (0x5b :: rest) = match skipBlank rest with
      | 0x5d :: left => some (.array [], left)
      | more => (readItems steps more).map fun (xs, left) => (.array xs, left) := by
  rw [readValue, skipBlank_cons rfl]
  rfl

theorem readValue_brace (steps : Nat) (rest : Bytes) :
    readValue (steps + 1) (0x7b :: rest) = match skipBlank rest with
      | 0x7d :: left => some (.object [], left)
      | more => (readMembers steps more).map fun (ms, left) => (.object ms, left) := by
  rw [readValue, skipBlank_cons rfl]
  rfl

theorem readValue_emptyArray (h : Blank text) (steps : Nat) (rest : Bytes) :
    readValue (steps + 1) (0x5b :: (text ++ 0x5d :: rest)) = some (.array [], rest) := by
  rw [readValue_bracket, skipBlank_append h, skipBlank_cons rfl]
  rfl

theorem readValue_emptyObject (h : Blank text) (steps : Nat) (rest : Bytes) :
    readValue (steps + 1) (0x7b :: (text ++ 0x7d :: rest)) = some (.object [], rest) := by
  rw [readValue_brace, skipBlank_append h, skipBlank_cons rfl]
  rfl

theorem readValue_array (h : ItemsText text vs) (hread : readItems steps (text ++ 0x5d :: rest) = some (vs, rest)) :
    readValue (steps + 1) (0x5b :: (text ++ 0x5d :: rest)) = some (.array vs, rest) := by
  obtain ⟨b, more, hskip, hclose⟩ := h.head (0x5d :: rest)
  rw [← readItems_skipBlank, hskip] at hread
  rw [readValue_bracket, hskip]
  split
  · rename_i hcons
    exact absurd (List.cons.inj hcons).1 hclose
  · rw [hread]
    rfl

theorem readValue_object (h : MembersText text ms)
    (hread : readMembers steps (text ++ 0x7d :: rest) = some (ms, rest)) :
    readValue (steps + 1) (0x7b :: (text ++ 0x7d :: rest)) = some (.object ms, rest) := by
  obtain ⟨more, hskip⟩ := h.head (0x7d :: rest)
  rw [← readMembers_skipBlank, hskip] at hread
  rw [readValue_brace, hskip]
  change Option.map _ (readMembers steps (0x22 :: more)) = _
  rw [hread]
  rfl

theorem readMembers_last {name left : Bytes} (h : NameText name sp) (hvalue : readValue steps input = some (v, left))
    (hskip : skipBlank left = 0x7d :: rest) :
    readMembers (steps + 1) (name ++ 0x3a :: input) = some ([(sp, v)], rest) := by
  obtain ⟨hbefore, hafter, h⟩ := h
  rw [readMembers]
  simp only [List.append_assoc, List.cons_append, skipBlank_append hbefore,
    skipBlank_cons (show isBlank 0x22 = false from rfl), h.read, skipBlank_append hafter,
    skipBlank_cons (show isBlank 0x3a = false from rfl), hvalue, hskip]

theorem readMembers_more {name left more : Bytes} (h : NameText name sp)
    (hvalue : readValue steps input = some (v, left)) (hskip : skipBlank left = 0x2c :: more)
    (hmore : readMembers steps more = some (ms, rest)) :
    readMembers (steps + 1) (name ++ 0x3a :: input) = some ((sp, v) :: ms, rest) := by
  obtain ⟨hbefore, hafter, h⟩ := h
  rw [readMembers]
  simp only [List.append_assoc, List.cons_append, skipBlank_append hbefore,
    skipBlank_cons (show isBlank 0x22 = false from rfl), h.read, skipBlank_append hafter,
    skipBlank_cons (show isBlank 0x3a = false from rfl), hvalue, hskip, hmore, Option.map_some]

-- The derivation is what the recursion is on. Two steps a byte are enough for a value; a list of items or
-- members takes one more, which the bracket in front of it pays for.
mutual

theorem ValueText.read {text : Bytes} {v : Json} : ValueText text v → ∀ (steps : Nat) (rest : Bytes),
    2 * text.length ≤ steps + 1 → Delimited rest → readValue (steps + 1) (text ++ rest) = some (v, rest)
  | .null, steps, rest, _, _ => readValue_null steps rest
  | .bool value, steps, rest, _, _ => readValue_bool value steps rest
  | .number h, steps, _, _, hrest => readValue_number h hrest steps
  | .string h, steps, rest, _, _ => by simpa using readValue_string h steps rest
  | .emptyArray h, steps, rest, _, _ => by simpa using readValue_emptyArray h steps rest
  | .array h, steps, rest, hsteps, _ => by
    simp only [List.length_cons, List.length_append] at hsteps
    simpa using readValue_array h (h.read steps rest (by omega))
  | .emptyObject h, steps, rest, _, _ => by simpa using readValue_emptyObject h steps rest
  | .object h, steps, rest, hsteps, _ => by
    simp only [List.length_cons, List.length_append] at hsteps
    simpa using readValue_object h (h.read steps rest (by omega))

theorem DocumentText.read {text : Bytes} {v : Json} : DocumentText text v → ∀ (steps : Nat) (rest : Bytes),
    2 * text.length ≤ steps → Delimited rest →
    ∃ left, readValue steps (text ++ rest) = some (v, left) ∧ skipBlank left = skipBlank rest
  | @DocumentText.intro before text after _ hbefore hafter h, steps, rest, hsteps, hrest => by
    have hpos := h.length_pos
    simp only [List.length_append] at hsteps
    obtain ⟨steps, rfl⟩ := Nat.exists_eq_add_of_le' (show 1 ≤ steps by omega)
    refine ⟨after ++ rest, ?_, skipBlank_append hafter rest⟩
    rw [List.append_assoc, List.append_assoc, ← readValue_skipBlank, skipBlank_append hbefore, readValue_skipBlank]
    exact h.read steps (after ++ rest) (by omega) (hafter.delimited hrest)

theorem ItemsText.read {text : Bytes} {vs : List Json} : ItemsText text vs → ∀ (steps : Nat) (rest : Bytes),
    2 * text.length + 1 ≤ steps → readItems steps (text ++ 0x5d :: rest) = some (vs, rest)
  | .last h, steps, rest, hsteps => by
    obtain ⟨steps, rfl⟩ := Nat.exists_eq_add_of_le' (show 1 ≤ steps by omega)
    obtain ⟨left, hread, hskip⟩ := h.read steps (0x5d :: rest) (by omega) (delimited_cons (by decide))
    rw [readItems, hread]
    simp only [hskip, skipBlank_cons (show isBlank 0x5d = false from rfl)]
  | @ItemsText.more _ more _ _ h hmore, steps, rest, hsteps => by
    simp only [List.length_append, List.length_cons] at hsteps
    obtain ⟨steps, rfl⟩ := Nat.exists_eq_add_of_le' (show 1 ≤ steps by omega)
    obtain ⟨left, hread, hskip⟩ := h.read steps (0x2c :: (more ++ 0x5d :: rest)) (by omega) (delimited_cons (by decide))
    have hmore := hmore.read steps rest (by omega)
    rw [List.append_assoc, List.cons_append, readItems, hread]
    simp only [hskip, skipBlank_cons (show isBlank 0x2c = false from rfl), hmore, Option.map_some]

theorem MembersText.read {text : Bytes} {ms : List (Bytes × Json)} : MembersText text ms →
    ∀ (steps : Nat) (rest : Bytes),
    2 * text.length + 1 ≤ steps → readMembers steps (text ++ 0x7d :: rest) = some (ms, rest)
  | .last hname h, steps, rest, hsteps => by
    simp only [List.length_append, List.length_cons] at hsteps
    obtain ⟨steps, rfl⟩ := Nat.exists_eq_add_of_le' (show 1 ≤ steps by omega)
    obtain ⟨left, hread, hskip⟩ := h.read steps (0x7d :: rest) (by omega) (delimited_cons (by decide))
    rw [List.append_assoc, List.cons_append]
    exact readMembers_last hname hread (hskip.trans (skipBlank_cons rfl))
  | @MembersText.more _ _ _ more _ _ hname h hmore, steps, rest, hsteps => by
    simp only [List.length_append, List.length_cons] at hsteps
    obtain ⟨steps, rfl⟩ := Nat.exists_eq_add_of_le' (show 1 ≤ steps by omega)
    obtain ⟨left, hread, hskip⟩ := h.read steps (0x2c :: (more ++ 0x7d :: rest)) (by omega) (delimited_cons (by decide))
    rw [List.append_assoc, List.cons_append, List.append_assoc, List.cons_append]
    exact readMembers_more hname hread (hskip.trans (skipBlank_cons rfl)) (hmore.read steps rest (by omega))

end

/-- **The reader reads the documents of the grammar and nothing else.** -/
theorem read_eq_some_iff {document : Bytes} : read document = some v ↔ DocumentText document v := by
  rw [Json.read]
  constructor
  · intro h
    split at h
    · rename_i v' rest hread
      obtain ⟨hskip, ⟨⟩⟩ := Option.ite_none_right_eq_some.mp h
      obtain ⟨before, text, hbefore, htext, hdocument⟩ := (sound _).value hread
      obtain ⟨after, hafter, hrest⟩ := exists_blank rest
      rw [hskip, List.append_nil] at hrest
      rw [hdocument, hrest]
      exact .intro hbefore hafter htext
    · cases h
  · intro h
    obtain ⟨left, hread, hskip⟩ := h.read (2 * document.length + 2) [] (Nat.le_add_right _ _) nofun
    rw [List.append_nil] at hread
    rw [hread]
    exact if_pos hskip

end DeviceTrust.Json
