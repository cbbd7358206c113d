import DeviceTrust.Proofs.Bytes
import DeviceTrust.Proofs.Named
import DeviceTrust.Proofs.Settings.Precedence
import DeviceTrust.Proofs.Settings.Startup

/-!
# Which key the codec gets

The last source that sets a key decides, and whether its key is blank is looked at only after that. A
source with an empty variable, or with a key file of line breaks, sets no key at all. One with a key of
spaces does set it, so it hides every key below and leaves the codec without one.
-/

namespace DeviceTrust.Settings

variable {files : Storage} {sources xs : List Source} {s : Source} {l : Layer} {r : Resolved}

/-- The key that a source sets, blank or not. -/
def Source.codecKey? (files : Storage) (s : Source) : Option Secret := s.get? files .codecKey

theorem Source.codecKey?_of_load (h : s.load files = .ok l) : s.codecKey? files = l.get? .codecKey := by
  rw [codecKey?, get?, h]
  rfl

theorem Layer.key_of_resolve (h : l.resolve = .ok r) :
    r.sealing.key = Option.filter (fun key => !key.isBlank) (l.get? .codecKey) := by
  rw [resolve_eq] at h
  obtain ⟨token, -, h⟩ := bind_eq_ok.mp h
  obtain ⟨keySet, -, h⟩ := bind_eq_ok.mp h
  split at h
  · cases h
  · obtain rfl := Except.ok.inj h
    have hkey : (l.sealing.getD {}).key = l.get? .codecKey := get_getD SealingLayer.key rfl l.sealing
    rw [← hkey]
    rfl

theorem Source.loads_of_loadOver {base : Layer} (h : loadOver files base xs = .ok l) :
    ∀ s ∈ xs, ∃ upper, s.load files = .ok upper := by
  induction xs generalizing base with
  | nil =>
    intro s hs
    cases hs
  | cons s rest ih =>
    rw [loadOver] at h
    split at h
    · cases h
    · rename_i upper hupper
      exact List.forall_mem_cons.mpr ⟨⟨upper, hupper⟩, ih h⟩

/-- The key of the settings is that of the last source that sets one, unless it is blank. -/
theorem key_of_load (h : load files sources = .ok r) :
    r.sealing.key =
      ((Source.ordered sources).reverse.findSome? (·.codecKey? files)).filter fun key => !key.isBlank := by
  rw [load_eq] at h
  obtain ⟨layer, hlayer, hresolve⟩ := bind_eq_ok.mp h
  obtain ⟨layer', hlayer', hget⟩ := Source.exists_loadOver (Source.loads_of_loadOver hlayer) {}
  obtain rfl : layer = layer' := Except.ok.inj (hlayer.symm.trans hlayer')
  rw [Layer.key_of_resolve hresolve, hget, Layer.get?_empty, Option.or_none]
  rfl

/-- Of all sources that set a key, this one has the last say, and its key is not blank. -/
inductive Source.HasLastKey (files : Storage) (sources : List Source) : Prop where
  | intro {lower upper : List Source} {s : Source} {key : Secret} (hordered : ordered sources = lower ++ s :: upper)
    (hkey : s.codecKey? files = some key) (hblank : key.isBlank = false)
    (hupper : ∀ u ∈ upper, u.codecKey? files = none) : HasLastKey files sources

theorem isKeyed_iff (h : load files sources = .ok r) :
    r.sealing.isKeyed = true ↔ Source.HasLastKey files sources := by
  rw [SealingSettings.isKeyed, key_of_load h, Option.isSome_iff_exists]
  constructor
  · rintro ⟨key, hkey⟩
    obtain ⟨hfound, hblank⟩ := Option.filter_eq_some_iff.mp hkey
    obtain ⟨lower, s, upper, hordered, hs, hupper⟩ := findSome?_reverse_eq_some_iff.mp hfound
    exact ⟨hordered, hs, by simpa using hblank, hupper⟩
  · rintro ⟨hordered, hs, hblank, hupper⟩
    have hfound := findSome?_reverse_eq_some_iff.mpr ⟨_, _, _, hordered, hs, hupper⟩
    exact ⟨_, by rw [hfound, Option.filter_some, hblank]; rfl⟩

/-- Where some source sets a key and no source sets a blank one, the last key is not blank. -/
theorem Source.hasLastKey_of_none_blank (hsome : ∃ s ∈ sources, ∃ key, s.codecKey? files = some key)
    (hnone : ∀ s ∈ sources, ∀ key, s.codecKey? files = some key → key.isBlank = false) : HasLastKey files sources := by
  have hmem (s : Source) : s ∈ ordered sources ↔ s ∈ sources := List.mem_mergeSort
  obtain ⟨s, hs, key, hkey⟩ := hsome
  cases hfound : (ordered sources).reverse.findSome? (·.codecKey? files) with
  | none =>
    have hunset := List.findSome?_eq_none_iff.mp hfound s (List.mem_reverse.mpr ((hmem s).mpr hs))
    rw [hkey] at hunset
    cases hunset
  | some last =>
    obtain ⟨lower, t, upper, hordered, ht, hupper⟩ := findSome?_reverse_eq_some_iff.mp hfound
    have hthere : t ∈ sources := (hmem t).mp (by rw [hordered]; exact List.mem_append_right _ List.mem_cons_self)
    exact ⟨hordered, ht, hnone t hthere last ht, hupper⟩

/-- An environment sets no key to nothing: its variable is empty or not there, or the file that it names has nothing
but line breaks in it. -/
inductive Environment.LacksKey (files : Storage) (env : Environment) : Prop where
  | value (hpath : Secret.path? env codecKeyVariable = none)
    (hvalue : env codecKeyVariable = none ∨ env codecKeyVariable = some "") : LacksKey files env
  | keyFile {path contents : String} (hpath : Secret.path? env codecKeyVariable = some path)
    (hread : files.readText path = .ok contents) (hbreaks : ∀ c ∈ contents.toList, Secret.isLineBreak c = true) :
    LacksKey files env

theorem Environment.get?_of_layer {env : Environment} (h : env.layer files = .ok l) :
    Secret.load files env codecKeyVariable = .ok (l.get? .codecKey) := by
  obtain ⟨sealing, hsealing, h⟩ := bind_eq_ok.mp h
  obtain ⟨token, -, h⟩ := bind_eq_ok.mp h
  obtain ⟨keySet, -, h⟩ := bind_eq_ok.mp h
  obtain ⟨logging, -, h⟩ := bind_eq_ok.mp h
  obtain rfl := Except.ok.inj h
  unfold sealingLayer at hsealing
  split at hsealing
  · rename_i key hkey
    obtain rfl := Except.ok.inj hsealing
    exact hkey
  · cases hsealing

theorem Secret.load_of_lacksKey {env : Environment} (h : env.LacksKey files) :
    load files env codecKeyVariable = .ok none := by
  rw [load]
  cases h with
  | value hpath hvalue =>
    rw [hpath]
    rcases hvalue with hvalue | hvalue <;> rw [hvalue] <;> rfl
  | @keyFile path contents hpath hread hbreaks =>
    have hnothing : Text.dropWhileEnd isLineBreak contents.toList = [] := by
      rw [← List.nil_append contents.toList, Text.dropWhileEnd_append hbreaks]
      rfl
    rw [hpath]
    simp only [hread, ofContents?, hnothing]
    rfl

theorem Source.codecKey?_of_lacksKey {env : Environment} (h : env.LacksKey files) (hload : env.layer files = .ok l) :
    (environment env).codecKey? files = none := by
  have hkey := (Environment.get?_of_layer hload).symm.trans (Secret.load_of_lacksKey h)
  rw [codecKey?_of_load (s := environment env) hload]
  exact Except.ok.inj hkey

/-- **The key of the last source that sets one is the key of the codec, unless it is blank.** Where settings are
accepted, they have a key exactly if the last of the keys that sources set is not blank. So they have one
whenever some source sets a key and none sets a blank one. With a key the codec seals under it or there is no
codec, and without one the codec hands everything through. An environment that sets its key to nothing, or
to a file of line breaks, sets none. -/
theorem codec_key_of_last_setter (h : load files sources = .ok r) :
    (r.sealing.isKeyed = true ↔ Source.HasLastKey files sources) ∧
    ((∃ s ∈ sources, ∃ key, s.codecKey? files = some key) →
      (∀ s ∈ sources, ∀ key, s.codecKey? files = some key → key.isBlank = false) → r.sealing.isKeyed = true) ∧
    (r.sealing.isKeyed = true → ∀ c, r.sealing.codec = .ok c → c.hasKey = true) ∧
    (r.sealing.isKeyed = false → r.sealing.codec = .ok .passthrough) ∧
    ∀ env, .environment env ∈ sources → env.LacksKey files → (Source.environment env).codecKey? files = none := by
  have hload := load_eq files sources
  rw [h] at hload
  obtain ⟨layer, hlayer, hresolve⟩ := bind_eq_ok.mp hload.symm
  have hcodec := (Layer.sound_of_resolve hresolve).codec_eq
  refine ⟨isKeyed_iff h, ?_, ?_, ?_, ?_⟩
  · exact fun hsome hnone => (isKeyed_iff h).mpr (Source.hasLastKey_of_none_blank hsome hnone)
  · intro hkeyed c hc
    obtain ⟨key, hkey⟩ := Option.isSome_iff_exists.mp hkeyed
    rw [hcodec, hkey] at hc
    cases hread : Sealing.Key.ofBase64 key.text with
    | ok k =>
      simp only [hread] at hc
      obtain rfl := Except.ok.inj hc
      rfl
    | error cause =>
      simp only [hread] at hc
      cases hc
  · intro hkeyless
    have hkey : r.sealing.key = none := by simpa [SealingSettings.isKeyed] using hkeyless
    rw [hcodec, hkey]
  · intro env henv hlacks
    obtain ⟨l, hl⟩ := Source.loads_of_loadOver hlayer _ (List.mem_mergeSort.mpr henv)
    exact Source.codecKey?_of_lacksKey hlacks hl

/-- A document with a key for the codec, and with a keyring. -/
def keyedDocument : String :=
  "[codec]\nkey = \"AAECAwQFBgcICQoLDA0ODw==\"\n\n[token.keyring]\nwebconfig_key = \"/keys/a.pub.pem\"\n"

def keyedLayer : Layer where
  sealing := some { key := some ⟨"AAECAwQFBgcICQoLDA0ODw=="⟩ }
  token := some { keyring := some [("webconfig_key", "/keys/a.pub.pem")] }

def keyedFiles : Storage := .ofObservations [("security.toml", .ok (.file (Bytes.ofText keyedDocument)))]

def keyVariable (value : String) : Environment := fun name => if name = codecKeyVariable then some value else none

theorem readText_keyedFiles : keyedFiles.readText "security.toml" = .ok keyedDocument := by
  have hbytes : keyedFiles.read "security.toml" = .ok (Bytes.ofText keyedDocument) := rfl
  rw [Storage.readText]
  simp only [hbytes, Bytes.text?_ofText]

theorem ofDocument?_keyedDocument : Layer.ofDocument? keyedDocument = some keyedLayer := by
  decide +kernel

theorem load_keyedDocument : (Source.file "security.toml").load keyedFiles = .ok keyedLayer := by
  have hcontains : keyedFiles.contains "security.toml" = true := rfl
  simp only [Source.load, hcontains, readText_keyedFiles, ofDocument?_keyedDocument]
  rfl

theorem load_under_environment {env : Environment} {lower : Source} {base : Layer} (hbase : lower.load files = .ok base)
    (h : env.layer files = .ok l) : load files [lower, .environment env] = (base.under l).resolve := by
  have hordered : Source.ordered [lower, .environment env] = [lower, .environment env] := by
    rw [Source.ordered_eq]
    cases lower with
    | fixed rank _ => cases rank <;> rfl
    | _ => rfl
  have henvironment : (Source.environment env).load files = .ok l := h
  rw [load, hordered]
  simp only [Source.loadOver, hbase, henvironment, Layer.empty_under]

/-- The layer of an environment in which only the key is set. -/
def keyVariableLayer (key : Option Secret) : Layer where
  sealing := some ⟨key⟩
  token := some ({} : TokenLayer).complete
  keySet := some {}
  logging := some {}

theorem layer_emptyVariable : (keyVariable "").layer keyedFiles = .ok (keyVariableLayer none) := by decide +kernel

/-- An empty variable above the document leaves the codec with the key of the document. -/
theorem codec_key_under_empty_variable :
    ∃ r, load keyedFiles [.file "security.toml", .environment (keyVariable "")] = .ok r ∧ r.sealing.isKeyed = true ∧
      (∀ c, r.sealing.codec = .ok c → c.hasKey = true) ∧
      (Source.environment (keyVariable "")).codecKey? keyedFiles = none := by
  have hresolve : (keyedLayer.under (keyVariableLayer none)).resolve.toOption.any
      (fun r => r.sealing.key = some ⟨"AAECAwQFBgcICQoLDA0ODw=="⟩) = true := by
    decide +kernel
  obtain ⟨r, hr, -⟩ := any_toOption.mp hresolve
  have hload := (load_under_environment load_keyedDocument layer_emptyVariable).trans hr
  obtain ⟨-, hkeyed, hcodec, -, henvironment⟩ := codec_key_of_last_setter hload
  have hunset := henvironment (keyVariable "") (by simp) (.value rfl (.inr rfl))
  have hset : (Source.file "security.toml").codecKey? keyedFiles = some ⟨"AAECAwQFBgcICQoLDA0ODw=="⟩ :=
    Source.codecKey?_of_load load_keyedDocument
  have hisKeyed : r.sealing.isKeyed = true := by
    refine hkeyed ⟨_, List.mem_cons_self, _, hset⟩ ?_
    intro s hs key hkey
    simp only [List.mem_cons, List.not_mem_nil, or_false] at hs
    rcases hs with rfl | rfl
    · obtain rfl := Option.some.inj (hset.symm.trans hkey)
      decide
    · rw [hunset] at hkey
      cases hkey
  exact ⟨r, hload, hisKeyed, hcodec hisKeyed, hunset⟩

/-- A variable that holds a space hides the key of the document: the settings are accepted without a key, and the
codec hands everything through. -/
theorem blank_variable_hides_key :
    ∃ r key, load keyedFiles [.file "security.toml", .environment (keyVariable " ")] = .ok r ∧
      (Source.file "security.toml").codecKey? keyedFiles = some key ∧ key.isBlank = false ∧
      r.sealing.isKeyed = false ∧ r.sealing.codec = .ok .passthrough := by
  have hlayer : (keyVariable " ").layer keyedFiles = .ok (keyVariableLayer (some ⟨" "⟩)) := by decide +kernel
  have hresolve : (keyedLayer.under (keyVariableLayer (some ⟨" "⟩))).resolve.toOption.any
      (fun r => r.sealing.key = none) = true := by
    decide +kernel
  obtain ⟨r, hr, hnone⟩ := any_toOption.mp hresolve
  have hkey : r.sealing.key = none := of_decide_eq_true hnone
  have hkeyless : r.sealing.isKeyed = false := by
    rw [SealingSettings.isKeyed, hkey]
    rfl
  have hcodec : r.sealing.codec = .ok .passthrough := by rw [(Layer.sound_of_resolve hr).codec_eq, hkey]
  have hload := (load_under_environment load_keyedDocument hlayer).trans hr
  exact ⟨r, _, hload, Source.codecKey?_of_load load_keyedDocument, by decide, hkeyless, hcodec⟩

end DeviceTrust.Settings
