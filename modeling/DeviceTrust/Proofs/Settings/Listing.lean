import DeviceTrust.Proofs.Named
import DeviceTrust.Proofs.Text.Parts
import DeviceTrust.Proofs.Text.Trim
import DeviceTrust.Settings.Variables

/-!
# Lists as they are written in variables

The commas of a value cut it into pieces, and a blank piece is no part of the list. So a list can be written in many
ways: with blanks around every item, and with commas to spare. An entry of a keyring can also have blanks around its
first equals sign, and any further sign belongs to the path. Whatever way is taken, what was written is read back.
-/

namespace DeviceTrust.Settings

open Text (Blank Trimmed Pieces blank_empty)

variable {env : Environment} {name value : String} {pieces : List String} {kid path before after s : String}
  {fault : ValueFault}

/-- The pieces that items are written in: one for each item, which `Writes` relates to the text of the item by itself,
and blank ones anywhere. -/
inductive Layout {α : Type} (Writes : α → String → Prop) : List α → List String → Prop where
  | nil : Layout Writes [] []
  | blank {items : List α} {piece : String} {pieces : List String} (hpiece : Blank piece)
    (h : Layout Writes items pieces) : Layout Writes items (piece :: pieces)
  | item {a : α} {items : List α} {before text after : String} {pieces : List String} (hbefore : Blank before)
    (htext : Writes a text) (hafter : Blank after) (h : Layout Writes items pieces) :
    Layout Writes (a :: items) ((before ++ text ++ after) :: pieces)

/-- What may stand between commas: no comma is in it, and no blanks are around it. -/
structure Plain (s : String) : Prop where
  trimmed : Trimmed s
  noComma : ',' ∉ s.toList

instance (s : String) : Decidable (Plain s) :=
  decidable_of_iff (Trimmed s ∧ ',' ∉ s.toList) ⟨fun h => ⟨h.1, h.2⟩, fun h => ⟨h.trimmed, h.noComma⟩⟩

inductive WritesItem : String → String → Prop where
  | intro {item : String} (hitem : Plain item) (hblank : ¬ Blank item) : WritesItem item item

/-- An entry of a keyring is an identifier and a path, and its first equals sign may have blanks around it. -/
inductive WritesPair : String × String → String → Prop where
  | intro {kid before after path : String} (hkid : Plain kid) (hsign : '=' ∉ kid.toList) (hpath : Plain path)
    (hbefore : Blank before) (hafter : Blank after) : WritesPair (kid, path) (kid ++ before ++ "=" ++ after ++ path)

theorem notMem_of_blank {c : Char} (hc : Text.isBlank c = false) (h : Blank s) : c ∉ s.toList := by
  intro hmem
  rw [h c hmem] at hc
  cases hc

theorem noComma_of_blank (h : Blank s) : ',' ∉ s.toList := notMem_of_blank (by decide) h

theorem noSign_of_blank (h : Blank s) : '=' ∉ s.toList := notMem_of_blank (by decide) h

section Layout

variable {α : Type} {Writes : α → String → Prop} {items : List α}

theorem Layout.forall_pieces {P : String → Prop} (h : Layout Writes items pieces)
    (hblank : ∀ piece, Blank piece → P piece)
    (hitem : ∀ a before text after, Writes a text → Blank before → Blank after → P (before ++ text ++ after)) :
    ∀ piece ∈ pieces, P piece := by
  induction h with
  | nil => exact fun _ hpiece => absurd hpiece List.not_mem_nil
  | blank hpiece _ ih => exact List.forall_mem_cons.mpr ⟨hblank _ hpiece, ih⟩
  | item hbefore htext hafter _ ih => exact List.forall_mem_cons.mpr ⟨hitem _ _ _ _ htext hbefore hafter, ih⟩

/-- Whatever reads the items one by one, with blanks around them, reads a layout of them. -/
theorem Layout.filterMap_eq {read : String → Option α} (h : Layout Writes items pieces)
    (hblank : ∀ piece, Blank piece → read piece = none)
    (hitem : ∀ a before text after, Writes a text → Blank before → Blank after →
      read (before ++ text ++ after) = some a) : pieces.filterMap read = items := by
  induction h with
  | nil => rfl
  | blank hpiece _ ih => rw [List.filterMap_cons_none (hblank _ hpiece), ih]
  | item hbefore htext hafter _ ih => rw [List.filterMap_cons_some (hitem _ _ _ _ htext hbefore hafter), ih]

/-- Where items have no comma in them, the commas of what is written are those between the pieces. -/
theorem Layout.pieces_joined (h : Layout Writes items pieces) (hitems : items ≠ [])
    (hwrites : ∀ a text, Writes a text → ',' ∉ text.toList) : Pieces ',' (",".intercalate pieces) pieces where
  nonempty := by
    rintro rfl
    cases h
    exact hitems rfl
  apart := by
    refine h.forall_pieces (fun piece hpiece => noComma_of_blank hpiece) ?_
    intro a before text after htext hbefore hafter
    simp [hwrites a text htext, noComma_of_blank hbefore, noComma_of_blank hafter]
  joined := rfl

end Layout

theorem pairOf?_eq_some (hkid : '=' ∉ kid.toList) (path : String) :
    pairOf? (kid ++ "=" ++ path) = some (Text.trim kid, Text.trim path) := by
  have hentry : (kid ++ "=" ++ path).toList = kid.toList ++ '=' :: path.toList := by simp
  have hsigns : ∀ c ∈ kid.toList, (c != '=') = true := fun c hc => bne_iff_ne.mpr fun heq => hkid (heq ▸ hc)
  have hrest : ('=' :: path.toList).dropWhile (· != '=') = '=' :: path.toList := rfl
  have hfirst : ('=' :: path.toList).takeWhile (· != '=') = [] := rfl
  rw [pairOf?, hentry, List.dropWhile_append_of_pos hsigns, List.takeWhile_append_of_pos hsigns, hrest, hfirst]
  simp

theorem exists_first_sign (h : '=' ∈ s.toList) : ∃ kid path, s = kid ++ "=" ++ path ∧ '=' ∉ kid.toList := by
  obtain ⟨kid, path, hs, hkid⟩ := List.eq_append_cons_of_mem h
  refine ⟨String.ofList kid, String.ofList path, ?_, by rwa [String.toList_ofList]⟩
  rw [← String.toList_inj, hs]
  simp

theorem pairOf?_eq_none_iff : pairOf? s = none ↔ '=' ∉ s.toList := by
  constructor
  · intro h hsign
    obtain ⟨kid, path, rfl, hkid⟩ := exists_first_sign hsign
    rw [pairOf?_eq_some hkid] at h
    cases h
  · intro h
    have hdropped : s.toList.dropWhile (· != '=') = [] :=
      List.dropWhile_eq_nil_iff.mpr fun c hc => bne_iff_ne.mpr fun heq => h (heq ▸ hc)
    rw [pairOf?, hdropped]

theorem sign_mem_surrounded (hbefore : Blank before) (hafter : Blank after) :
    '=' ∈ (before ++ s ++ after).toList ↔ '=' ∈ s.toList := by
  simp [noSign_of_blank hbefore, noSign_of_blank hafter]

/-- The blanks around an entry are those around its identifier and its path, or it is no pair with or without them. -/
theorem pairOf?_surrounded (hbefore : Blank before) (hafter : Blank after) (s : String) :
    pairOf? (before ++ s ++ after) = pairOf? s := by
  by_cases hs : '=' ∈ s.toList
  · obtain ⟨kid, path, rfl, hkid⟩ := exists_first_sign hs
    have hshifted :
        before ++ (kid ++ "=" ++ path) ++ after = (before ++ kid ++ "") ++ "=" ++ ("" ++ path ++ after) := by
      simp [String.append_assoc]
    have hkid' : '=' ∉ (before ++ kid ++ "").toList := by rwa [sign_mem_surrounded hbefore blank_empty]
    rw [hshifted, pairOf?_eq_some hkid', pairOf?_eq_some hkid, Text.trim_surrounded hbefore blank_empty,
      Text.trim_surrounded blank_empty hafter]
  · rw [pairOf?_eq_none_iff.mpr hs, pairOf?_eq_none_iff, sign_mem_surrounded hbefore hafter]
    exact hs

theorem pairOf?_trim (s : String) : pairOf? (Text.trim s) = pairOf? s := by
  obtain ⟨before, after, hbefore, hafter, hs⟩ := Text.exists_surrounded s
  calc pairOf? (Text.trim s)
      = pairOf? (before ++ Text.trim s ++ after) := (pairOf?_surrounded hbefore hafter _).symm
    _ = pairOf? s := by rw [← hs]

theorem pairOf?_of_writesPair {pair : String × String} {text : String} (h : WritesPair pair text) :
    pairOf? text = some pair := by
  obtain @⟨kid, before, after, path, hkid, hsign, hpath, hbefore, hafter⟩ := h
  have htext : kid ++ before ++ "=" ++ after ++ path = ("" ++ kid ++ before) ++ "=" ++ (after ++ path ++ "") := by
    simp [String.append_assoc]
  have hsign' : '=' ∉ ("" ++ kid ++ before).toList := by rwa [sign_mem_surrounded blank_empty hbefore]
  rw [htext, pairOf?_eq_some hsign', Text.trim_surrounded blank_empty hbefore,
    Text.trim_surrounded hafter blank_empty, hkid.trimmed.trim_eq, hpath.trimmed.trim_eq]

/-- The first piece that is neither blank nor a pair, as the fault that it is. -/
inductive FirstFault : List String → ValueFault → Prop where
  | here {piece : String} {rest : List String} (hpiece : ¬ Blank piece) (hsign : '=' ∉ piece.toList) :
    FirstFault (piece :: rest) (.notPair (Text.trim piece))
  | later {piece : String} {rest : List String} {fault : ValueFault} (hpiece : Blank piece ∨ '=' ∈ piece.toList)
    (h : FirstFault rest fault) : FirstFault (piece :: rest) fault

theorem exists_firstFault_iff : (∃ fault, FirstFault pieces fault) ↔ ∃ p ∈ pieces, ¬ Blank p ∧ '=' ∉ p.toList := by
  constructor
  · rintro ⟨fault, h⟩
    induction h with
    | here hpiece hsign => exact ⟨_, List.mem_cons_self, hpiece, hsign⟩
    | later _ _ ih =>
      obtain ⟨p, hp, hfault⟩ := ih
      exact ⟨p, List.mem_cons_of_mem _ hp, hfault⟩
  · rintro ⟨p, hp, hblank, hsign⟩
    induction pieces with
    | nil => cases hp
    | cons piece rest ih =>
      by_cases hpiece : Blank piece ∨ '=' ∈ piece.toList
      · rcases List.mem_cons.mp hp with rfl | hp
        · exact absurd hpiece (not_or.mpr ⟨hblank, hsign⟩)
        · obtain ⟨fault, h⟩ := ih hp
          exact ⟨fault, .later hpiece h⟩
      · obtain ⟨hblank, hsign⟩ := not_or.mp hpiece
        exact ⟨_, .here hblank hsign⟩

/-- Reads a piece as an entry of a keyring, unless it is blank or no pair. -/
def pairOfPiece? (piece : String) : Option (String × String) := (Text.nonBlank? piece).bind pairOf?

theorem pairsOf_cases (pieces : List String) :
    (∃ fault, FirstFault pieces fault ∧ pairsOf (pieces.filterMap Text.nonBlank?) = .error fault) ∨
      ((∀ p ∈ pieces, Blank p ∨ '=' ∈ p.toList) ∧
        pairsOf (pieces.filterMap Text.nonBlank?) = .ok (pieces.filterMap pairOfPiece?)) := by
  induction pieces with
  | nil => exact .inr ⟨fun _ hp => absurd hp List.not_mem_nil, rfl⟩
  | cons piece rest ih =>
    by_cases hblank : Blank piece
    · have hnone := Text.nonBlank?_of_blank hblank
      have hpair : pairOfPiece? piece = none := by rw [pairOfPiece?, hnone]; rfl
      rw [List.filterMap_cons_none hnone, List.filterMap_cons_none hpair]
      rcases ih with ⟨fault, hfirst, herror⟩ | ⟨hrest, hok⟩
      · exact .inl ⟨fault, .later (.inl hblank) hfirst, herror⟩
      · exact .inr ⟨List.forall_mem_cons.mpr ⟨.inl hblank, hrest⟩, hok⟩
    · have hsome := Text.nonBlank?_of_not_blank hblank
      rw [List.filterMap_cons_some hsome, pairsOf, pairOf?_trim]
      by_cases hsign : '=' ∈ piece.toList
      · obtain ⟨pair, hpair⟩ : ∃ pair, pairOf? piece = some pair :=
          Option.ne_none_iff_exists'.mp fun hnone => pairOf?_eq_none_iff.mp hnone hsign
        have hpiece : pairOfPiece? piece = some pair := by
          rw [pairOfPiece?, hsome, Option.bind_some, pairOf?_trim, hpair]
        rw [hpair, List.filterMap_cons_some hpiece]
        rcases ih with ⟨fault, hfirst, herror⟩ | ⟨hrest, hok⟩
        · exact .inl ⟨fault, .later (.inr hsign) hfirst, by rw [herror]; rfl⟩
        · exact .inr ⟨List.forall_mem_cons.mpr ⟨.inr hsign, hrest⟩, by rw [hok]; rfl⟩
      · rw [pairOf?_eq_none_iff.mpr hsign]
        exact .inl ⟨_, .here hblank hsign, rfl⟩

theorem sign_mem_of_writesPair {pair : String × String} {text : String} (h : WritesPair pair text) :
    '=' ∈ text.toList := by
  cases h
  simp

theorem pairOfPiece?_surrounded {pair : String × String} {text : String} (htext : WritesPair pair text)
    (hbefore : Blank before) (hafter : Blank after) : pairOfPiece? (before ++ text ++ after) = some pair := by
  have hsign : '=' ∈ (before ++ text ++ after).toList :=
    (sign_mem_surrounded hbefore hafter).mpr (sign_mem_of_writesPair htext)
  have hfilled : ¬ Blank (before ++ text ++ after) := fun hblank => noSign_of_blank hblank hsign
  rw [pairOfPiece?, Text.nonBlank?_of_not_blank hfilled, Option.bind_some, pairOf?_trim,
    pairOf?_surrounded hbefore hafter, pairOf?_of_writesPair htext]

theorem noComma_of_writesPair {pair : String × String} {text : String} (h : WritesPair pair text) :
    ',' ∉ text.toList := by
  obtain ⟨hkid, -, hpath, hbefore, hafter⟩ := h
  simp [hkid.noComma, hpath.noComma, noComma_of_blank hbefore, noComma_of_blank hafter]

theorem noComma_of_writesItem {item text : String} (h : WritesItem item text) : ',' ∉ text.toList := by
  obtain ⟨hitem, -⟩ := h
  exact hitem.noComma

theorem nonBlank?_surrounded {item text : String} (htext : WritesItem item text) (hbefore : Blank before)
    (hafter : Blank after) : Text.nonBlank? (before ++ text ++ after) = some item := by
  obtain ⟨hitem, hblank⟩ := htext
  have htrim : Text.trim (before ++ item ++ after) = Text.trim item := Text.trim_surrounded hbefore hafter
  have hfilled : ¬ Blank (before ++ item ++ after) := by
    rw [← Text.trim_eq_empty_iff, htrim, Text.trim_eq_empty_iff]
    exact hblank
  rw [Text.nonBlank?_of_not_blank hfilled, htrim, hitem.trimmed.trim_eq]

theorem Environment.filled?_eq_none_iff : env.filled? name = none ↔ env name = none ∨ env name = some "" := by
  rw [filled?]
  cases env name with
  | none => simp
  | some value => simp

theorem Environment.list?_eq_none_iff : env.list? name = none ↔ env name = none ∨ env name = some "" := by
  rw [list?, Option.map_eq_none_iff, filled?_eq_none_iff]

theorem Environment.keyring?_eq_ok_none_iff : env.keyring? name = .ok none ↔ env name = none ∨ env name = some "" := by
  rw [← list?_eq_none_iff, keyring?]
  cases env.list? name with
  | none => exact iff_of_true rfl rfl
  | some entries =>
    refine iff_of_false (fun h => ?_) nofun
    simp only at h
    split at h <;> cases h

theorem Environment.list?_eq (henv : env name = some value) (hvalue : value ≠ "") (hpieces : Pieces ',' value pieces) :
    env.list? name = some (pieces.filterMap Text.nonBlank?) := by
  have hfilled : env.filled? name = some value := by
    rw [filled?, henv]
    simp [hvalue]
  rw [list?, hfilled, Option.map_some, listParts, Text.pieces_iff.mp hpieces]

theorem filterMap_nonBlank? (pieces : List String) :
    pieces.filterMap Text.nonBlank? = (pieces.filter fun p => ¬ Blank p).map Text.trim := by
  induction pieces with
  | nil => rfl
  | cons piece rest ih =>
    by_cases hblank : Blank piece
    · rw [List.filterMap_cons_none (Text.nonBlank?_of_blank hblank), ih]
      simp [hblank]
    · rw [List.filterMap_cons_some (Text.nonBlank?_of_not_blank hblank), ih]
      simp [hblank]

/-- A value has a first fault, or all of its pieces that are not blank are read as pairs. -/
theorem Environment.keyring?_cases (henv : env name = some value) (hpieces : Pieces ',' value pieces) :
    (∃ fault, FirstFault pieces fault ∧ env.keyring? name = .error (.value name fault)) ∨
      ((∀ p ∈ pieces, Blank p ∨ '=' ∈ p.toList) ∧ env.keyring? name =
        .ok (if value = "" then none else some (Named.ofList (pieces.filterMap pairOfPiece?)))) := by
  by_cases hvalue : value = ""
  · subst hvalue
    obtain rfl : [""] = pieces := Text.pieces_iff.mp hpieces
    refine .inr ⟨List.forall_mem_singleton.mpr (.inl blank_empty), ?_⟩
    exact keyring?_eq_ok_none_iff.mpr (.inr henv)
  · rw [keyring?, list?_eq henv hvalue hpieces, if_neg hvalue]
    rcases pairsOf_cases pieces with ⟨fault, hfirst, herror⟩ | ⟨hpairs, hok⟩
    · exact .inl ⟨fault, hfirst, by simp only [herror]⟩
    · exact .inr ⟨hpairs, by simp only [hok]⟩

/-- Where something was read from the pieces of a value, the value is not empty. -/
theorem ne_empty_of_filterMap {α : Type} {read : String → Option α} {items : List α} (hpieces : Pieces ',' value pieces)
    (hnothing : read "" = none) (hread : pieces.filterMap read = items) (hitems : items ≠ []) : value ≠ "" := by
  rintro rfl
  obtain rfl : [""] = pieces := Text.pieces_iff.mp hpieces
  rw [List.filterMap_cons_none hnothing] at hread
  exact hitems hread.symm

theorem Environment.list?_of_layout {items : List String} (hitems : items ≠ [])
    (hlayout : Layout WritesItem items pieces) (henv : env name = some (",".intercalate pieces)) :
    env.list? name = some items := by
  have hpieces := hlayout.pieces_joined hitems fun _ _ => noComma_of_writesItem
  have hread : pieces.filterMap Text.nonBlank? = items :=
    hlayout.filterMap_eq (fun _ => Text.nonBlank?_of_blank) fun _ _ _ _ => nonBlank?_surrounded
  have hvalue := ne_empty_of_filterMap hpieces rfl hread hitems
  rw [list?_eq henv hvalue hpieces, hread]

theorem Environment.keyring?_of_layout {pairs : List (String × String)} (hpairs : pairs ≠ [])
    (hlayout : Layout WritesPair pairs pieces) (henv : env name = some (",".intercalate pieces)) :
    env.keyring? name = .ok (some (Named.ofList pairs)) := by
  have hpieces := hlayout.pieces_joined hpairs fun _ _ => noComma_of_writesPair
  have hread : pieces.filterMap pairOfPiece? = pairs := by
    refine hlayout.filterMap_eq (fun piece hblank => ?_) fun _ _ _ _ => pairOfPiece?_surrounded
    rw [pairOfPiece?, Text.nonBlank?_of_blank hblank, Option.bind_none]
  have hvalue := ne_empty_of_filterMap hpieces rfl hread hpairs
  have hsigns : ∀ p ∈ pieces, Blank p ∨ '=' ∈ p.toList := by
    refine hlayout.forall_pieces (fun _ => .inl) fun pair before text after htext hbefore hafter => .inr ?_
    exact (sign_mem_surrounded hbefore hafter).mpr (sign_mem_of_writesPair htext)
  rcases keyring?_cases henv hpieces with ⟨fault, hfirst, -⟩ | ⟨-, hok⟩
  · obtain ⟨p, hp, hblank, hnone⟩ := exists_firstFault_iff.mp ⟨fault, hfirst⟩
    exact absurd (hsigns p hp) (not_or.mpr ⟨hblank, hnone⟩)
  · rw [hok, if_neg hvalue, hread]

/-- **Lists and keyrings are read back from however they are written.** A variable is unset for a list or a keyring if
it is not there or empty, and in no other case. What is read as a list are the pieces of the value that are not
blank, in order and without the blanks around them, so any layout of a list is read as the list. A keyring is refused
just where some piece that is not blank has no equals sign, for the first of these; and any layout of a keyring is
read as a map that has, under each identifier, the path that was written last. -/
theorem lists_and_keyrings_read_back (env : Environment) (name : String) :
    (env.list? name = none ↔ env name = none ∨ env name = some "") ∧
    (env.keyring? name = .ok none ↔ env name = none ∨ env name = some "") ∧
    (∀ value, ∃! pieces, Pieces ',' value pieces) ∧
    (∀ value pieces, env name = some value → Pieces ',' value pieces →
      (value ≠ "" → env.list? name = some ((pieces.filter fun p => ¬ Blank p).map Text.trim)) ∧
      ((∃ fault, env.keyring? name = .error (.value name fault)) ↔ ∃ p ∈ pieces, ¬ Blank p ∧ '=' ∉ p.toList) ∧
      ∀ e, env.keyring? name = .error e → ∃ fault, FirstFault pieces fault ∧ e = .value name fault) ∧
    (∀ items pieces, items ≠ [] → Layout WritesItem items pieces → env name = some (",".intercalate pieces) →
      env.list? name = some items) ∧
    ∀ pairs pieces, pairs ≠ [] → Layout WritesPair pairs pieces → env name = some (",".intercalate pieces) →
      ∃ keyring, env.keyring? name = .ok (some keyring) ∧ Named.Ascending keyring ∧
        (∀ kid path, keyring.lookup kid = some path ↔
          ∃ before after, pairs = before ++ (kid, path) :: after ∧ ∀ pair ∈ after, pair.1 ≠ kid) ∧
        ∀ m, Named.Ascending m → pairs.Perm m → keyring = m := by
  refine ⟨Environment.list?_eq_none_iff, Environment.keyring?_eq_ok_none_iff,
    fun value => ⟨_, Text.pieces_iff.mpr rfl, fun _ h => (Text.pieces_iff.mp h).symm⟩, ?_, ?_, ?_⟩
  · intro value pieces henv hpieces
    refine ⟨fun hvalue => by rw [Environment.list?_eq henv hvalue hpieces, filterMap_nonBlank?], ?_⟩
    rw [← exists_firstFault_iff]
    rcases Environment.keyring?_cases henv hpieces with ⟨fault, hfirst, herror⟩ | ⟨hpairs, hok⟩
    · refine ⟨iff_of_true ⟨fault, herror⟩ ⟨fault, hfirst⟩, fun e he => ⟨fault, hfirst, ?_⟩⟩
      rw [herror] at he
      exact (Except.error.inj he).symm
    · have hnone : ¬ ∃ fault, FirstFault pieces fault := by
        rw [exists_firstFault_iff]
        rintro ⟨p, hp, hfault⟩
        exact not_or.mpr hfault (hpairs p hp)
      rw [hok]
      exact ⟨iff_of_false nofun hnone, nofun⟩
  · intro items pieces hitems hlayout henv
    exact Environment.list?_of_layout hitems hlayout henv
  · intro pairs pieces hpairs hlayout henv
    refine ⟨Named.ofList pairs, Environment.keyring?_of_layout hpairs hlayout henv, Named.ascending_ofList pairs,
      fun _ _ => Named.lookup_ofList_eq_some_iff, fun m hm hperm => ?_⟩
    rw [Named.ofList_perm hperm hm.nodup, Named.ofList_of_ascending hm]

/-- A keyring of two entries, not in the order of their identifiers. -/
def spacedPieces : List String :=
  [" " ++ ("web" ++ " " ++ "=" ++ " " ++ "/k/a=1.pem") ++ "", "", "" ++ ("rot" ++ "" ++ "=" ++ "" ++ "/k/b.pem") ++ " "]

theorem layout_spacedPieces : Layout WritesPair [("web", "/k/a=1.pem"), ("rot", "/k/b.pem")] spacedPieces :=
  .item (by decide) (.intro (by decide) (by decide) (by decide) (by decide) (by decide)) (by decide) <|
    .blank (by decide) <|
    .item (by decide) (.intro (by decide) (by decide) (by decide) (by decide) (by decide)) (by decide) .nil

/-- A keyring with blanks and an empty entry, a list with blanks and a comma to spare, and a path without a sign. -/
theorem lists_and_keyrings_read_back_with_blanks :
    Environment.keyring? (fun _ => some " web = /k/a=1.pem,,rot=/k/b.pem ") "KEYRING" =
        .ok (some [("rot", "/k/b.pem"), ("web", "/k/a=1.pem")]) ∧
      Environment.list? (fun _ => some "\tweb , rot,") "KIDS" = some ["web", "rot"] ∧
      ∃ fault, Environment.keyring? (fun _ => some "web=/k/a.pem, /k/b.pem") "KEYRING" =
        .error (.value "KEYRING" fault) := by
  refine ⟨?_, ?_, ?_⟩
  · obtain ⟨-, -, -, -, -, hread⟩ := lists_and_keyrings_read_back (fun _ => some " web = /k/a=1.pem,,rot=/k/b.pem ")
      "KEYRING"
    obtain ⟨keyring, hkeyring, -, -, hmap⟩ := hread _ _ (List.cons_ne_nil _ _) layout_spacedPieces rfl
    rw [hkeyring, hmap [("rot", "/k/b.pem"), ("web", "/k/a=1.pem")] (List.pairwise_pair.mpr (by decide))
      (List.Perm.swap _ _ _)]
  · obtain ⟨-, -, -, -, hread, -⟩ := lists_and_keyrings_read_back (fun _ => some "\tweb , rot,") "KIDS"
    have hlayout : Layout WritesItem ["web", "rot"] ["\t" ++ "web" ++ " ", " " ++ "rot" ++ "", ""] :=
      .item (by decide) (.intro (by decide) (by decide)) (by decide) <|
        .item (by decide) (.intro (by decide) (by decide)) (by decide) <| .blank (by decide) .nil
    exact hread _ _ (List.cons_ne_nil _ _) hlayout rfl
  · obtain ⟨-, -, -, hall, -, -⟩ := lists_and_keyrings_read_back (fun _ => some "web=/k/a.pem, /k/b.pem") "KEYRING"
    have hcut : Pieces ',' "web=/k/a.pem, /k/b.pem" ["web=/k/a.pem", " /k/b.pem"] := ⟨by decide, by decide, rfl⟩
    exact (hall _ _ rfl hcut).2.1.mpr ⟨" /k/b.pem", by decide, by decide, by decide⟩

end DeviceTrust.Settings
