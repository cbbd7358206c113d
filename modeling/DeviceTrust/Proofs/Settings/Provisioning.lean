import DeviceTrust.Proofs.Sealing.Texts
import DeviceTrust.Proofs.Settings.CodecKey

/-!
# Every way to provision a key gives the same codec

A key travels as text, and with the text come blanks: a line break at the end of a file, spaces in a
variable. Each of the places that the text passes through drops some of them. Since the text of a key
has no blanks inside, and the last place drops all that are left, it is the same key that arrives
in the codec, whichever way it took, and the rest of the settings knows nothing of it.
-/

namespace DeviceTrust

namespace Sealing

variable {k : Key} {text : String}

/-- The text of a key, with blanks around it. -/
inductive Key.Prints (k : Key) : String → Prop where
  | intro {before after : String} (hbefore : ∀ c ∈ before.toList, Text.isBlank c = true)
    (hafter : ∀ c ∈ after.toList, Text.isBlank c = true) : Prints k (before ++ k.toBase64 ++ after)

theorem Key.Prints.trim_eq (h : k.Prints text) : Text.trim text = k.toBase64 := by
  obtain ⟨hbefore, hafter⟩ := h
  rw [Text.trim_surrounded hbefore hafter]
  exact Base64.trim_encode .standard k.bytes

theorem Key.ofBytes_bytes (k : Key) : Key.ofBytes k.bytes = .ok k := by
  have hsize : KeySize.ofLength k.bytes.length = .ok k.size := by
    rw [k.length_bytes]
    cases k.size <;> rfl
  unfold ofBytes
  split
  · rename_i size h
    obtain rfl : size = k.size := Except.ok.inj (h.symm.trans hsize)
    rfl
  · rename_i e h
    cases h.symm.trans hsize

theorem Key.ofBase64_of_trim (h : Text.trim text = k.toBase64) : Key.ofBase64 text = .ok k := by
  rw [ofBase64, h, toBase64, Base64.decode_encode]
  exact k.ofBytes_bytes

theorem Key.toBase64_ne_empty (k : Key) : k.toBase64 ≠ "" := by
  intro hempty
  have hbytes : Base64.decode .standard k.toBase64 = .ok k.bytes := Base64.decode_encode .standard k.bytes
  rw [hempty] at hbytes
  have hlength : k.bytes.length = 0 := congrArg List.length (Except.ok.inj hbytes).symm
  rw [k.length_bytes] at hlength
  revert hlength
  cases k.size <;> decide

end Sealing

namespace Settings

open Sealing (Key Codec)

variable {files : Storage} {text : String} {s : Source} {l a b : Layer} {key : Secret} {k : Key}

/-- What a layer says of everything but the codec. -/
def Layer.keyless (l : Layer) : Layer := { l with sealing := none }

def Resolved.withKey (r : Resolved) (key : Secret) : Resolved := { r with sealing := ⟨some key⟩ }

/-- One layer sets the key, and all else is set alike. -/
structure Layer.AddsKey (key : Secret) (a b : Layer) : Prop where
  sets : a.get? .codecKey = some key
  others : ∀ σ, σ ≠ .codecKey → a.get? σ = b.get? σ

theorem Layer.addsKey_keyless (m : Layer) (h : l.get? .codecKey = some key) :
    AddsKey key (m.under l) (m.under l.keyless) := by
  constructor
  · rw [get?_under, h]
    rfl
  · intro σ hσ
    have hsame : l.keyless.get? σ = l.get? σ := by
      cases σ with
      | codecKey => exact absurd rfl hσ
      | _ => rfl
    rw [get?_under, get?_under, hsame]

theorem Layer.AddsKey.under (h : AddsKey key a b) {upper : Layer} (hupper : upper.get? .codecKey = none) :
    AddsKey key (a.under upper) (b.under upper) := by
  constructor
  · rw [get?_under, hupper, Option.none_or]
    exact h.sets
  · intro σ hσ
    rw [get?_under, get?_under, h.others σ hσ]

theorem Layer.AddsKey.resolve (h : AddsKey key a b) (hblank : key.isBlank = false) :
    a.resolve = b.resolve.map (·.withKey key) := by
  let keyed : Layer := { b with sealing := some ⟨some key⟩ }
  have hsame : ∀ σ, a.get? σ = keyed.get? σ := by
    intro σ
    by_cases hσ : σ = .codecKey
    · rw [hσ, h.sets]
      rfl
    · rw [h.others σ hσ]
      cases σ with
      | codecKey => exact absurd rfl hσ
      | _ => rfl
  have hkey : SealingLayer.resolve ⟨some key⟩ = ⟨some key⟩ := by
    rw [SealingLayer.resolve, Option.filter_some, hblank]
    rfl
  rw [resolve_congr hsame, resolve_eq, resolve_eq]
  show ((b.token.getD {}).resolve >>= _) = _
  cases (b.token.getD {}).resolve with
  | error e => rfl
  | ok token =>
    rw [ok_bind, ok_bind]
    show ((b.keySet.getD {}).resolve >>= _) = _
    cases (b.keySet.getD {}).resolve with
    | error e => rfl
    | ok keySet =>
      rw [ok_bind, ok_bind]
      split
      · rfl
      · show Except.ok (⟨SealingLayer.resolve ⟨some key⟩, token, keySet, _⟩ : Resolved) = _
        rw [hkey]
        rfl

theorem Source.resolve_loadOver_of_addsKey (h : a.AddsKey key b) (hblank : key.isBlank = false) {xs : List Source}
    (hxs : ∀ u ∈ xs, u.codecKey? files = none) :
    loadOver files a xs >>= Layer.resolve = (loadOver files b xs >>= Layer.resolve).map (·.withKey key) := by
  induction xs generalizing a b with
  | nil =>
    rw [loadOver, loadOver, ok_bind, ok_bind]
    exact h.resolve hblank
  | cons u rest ih =>
    obtain ⟨hu, hrest⟩ := List.forall_mem_cons.mp hxs
    rw [loadOver, loadOver]
    cases hload : u.load files with
    | error e => rfl
    | ok upper =>
      rw [codecKey?_of_load hload] at hu
      exact ih (h.under hu) hrest

/-- No source with more say sets a key: neither one of higher rank nor a later one of the same rank. -/
structure Source.Decides (files : Storage) (before : List Source) (s : Source) (after : List Source) : Prop where
  before : ∀ u ∈ before, s.rank.number < u.rank.number → u.codecKey? files = none
  after : ∀ u ∈ after, s.rank.number ≤ u.rank.number → u.codecKey? files = none

/-- **A key changes nothing but the codec**: the settings are accepted with it exactly if they are without it, and
then they are the same but for the key. -/
theorem load_with_key {before after : List Source} (hload : s.load files = .ok l)
    (hkey : l.get? .codecKey = some key) (hblank : key.isBlank = false) (hdecides : s.Decides files before after) :
    load files (before ++ s :: after) =
      (load files (before ++ .fixed s.rank l.keyless :: after)).map (·.withKey key) := by
  obtain ⟨lower, upper, hordered, -, hupper⟩ := Source.ordered_insert before after s.rank
  have hunset : ∀ u ∈ upper, u.codecKey? files = none := by
    intro u hu
    rcases hupper u hu with ⟨hbefore, hrank⟩ | ⟨hafter, hrank⟩
    · exact hdecides.before u hbefore hrank
    · exact hdecides.after u hafter hrank
  rw [load_eq, load_eq, hordered s rfl, hordered (.fixed s.rank l.keyless) rfl, Source.loadOver_append,
    Source.loadOver_append]
  cases Source.loadOver files {} lower with
  | error e => rfl
  | ok m =>
    rw [ok_bind, ok_bind, Source.loadOver, hload, Source.loadOver]
    exact Source.resolve_loadOver_of_addsKey (Layer.addsKey_keyless m hkey) hblank hunset

/-- A source supplies a text as the key of the codec, in the layer that it loads: in its document or its layer, in
the variable of the key, or in the file that the other variable names. -/
inductive Source.Supplies (files : Storage) (text : String) : Source → Layer → Prop where
  | document {path document : String} {l : Layer} (hread : files.readText path = .ok document)
    (hdocument : Layer.ofDocument? document = some l) (hkey : l.get? .codecKey = some ⟨text⟩) :
    Supplies files text (.file path) l
  | layer {rank : Rank} {l : Layer} (hkey : l.get? .codecKey = some ⟨text⟩) : Supplies files text (.fixed rank l) l
  | value {env : Environment} {l : Layer} (hlayer : env.layer files = .ok l)
    (hpath : Secret.path? env codecKeyVariable = none) (hvalue : env codecKeyVariable = some text) :
    Supplies files text (.environment env) l
  | keyFile {env : Environment} {path : String} {l : Layer} (hlayer : env.layer files = .ok l)
    (hpath : Secret.path? env codecKeyVariable = some path) (hread : files.readText path = .ok text) :
    Supplies files text (.environment env) l

theorem contains_of_readText {path : String} (h : files.readText path = .ok text) : files.contains path = true := by
  unfold Storage.readText Storage.read at h
  unfold Storage.contains
  cases hentry : files.resolve path with
  | ok entry => rfl
  | error e =>
    simp only [hentry] at h
    cases h

theorem Source.Supplies.load_eq (h : s.Supplies files text l) : s.load files = .ok l := by
  cases h with
  | document hread hdocument _ =>
    simp only [load, contains_of_readText hread, hread, hdocument]
    rfl
  | layer _ => rfl
  | value hlayer _ _ | keyFile hlayer _ _ => exact hlayer

/-- What is left of the contents of a file without the line breaks at its end has the same key in it. -/
theorem Secret.ofContents?_of_trim (h : Text.trim text = k.toBase64) :
    ∃ key, ofContents? text = some key ∧ Text.trim key.text = k.toBase64 := by
  have hbreak : ∀ c, isLineBreak c = true → Text.isBlank c = true := by
    intro c hc
    rcases Bool.or_eq_true_iff.mp hc with hc | hc <;> rw [beq_iff_eq.mp hc] <;> decide
  have hleft : Text.trim (String.ofList (Text.dropWhileEnd isLineBreak text.toList)) = k.toBase64 := by
    rw [Text.trim, String.toList_ofList, Text.trimChars_dropWhileEnd hbreak]
    exact h
  refine ⟨⟨_⟩, if_neg fun hempty => ?_, hleft⟩
  rw [String.isEmpty_iff.mp hempty] at hleft
  exact k.toBase64_ne_empty hleft.symm

/-- Whichever way a key is supplied, its text arrives with no more than blanks around it. -/
theorem Source.Supplies.exists_key (h : s.Supplies files text l) (ht : Text.trim text = k.toBase64) :
    ∃ key, l.get? .codecKey = some key ∧ Text.trim key.text = k.toBase64 := by
  cases h with
  | document _ _ hkey | layer hkey => exact ⟨⟨text⟩, hkey, ht⟩
  | value hlayer hpath hvalue =>
    have hne : text.isEmpty = false := by
      rw [String.isEmpty_eq_false_iff]
      rintro rfl
      exact k.toBase64_ne_empty ht.symm
    have hkey := Environment.get?_of_layer hlayer
    simp only [Secret.load, hpath, hvalue, Option.bind_some, Secret.ofText?, hne] at hkey
    exact ⟨⟨text⟩, (Except.ok.inj hkey).symm, ht⟩
  | keyFile hlayer hpath hread =>
    obtain ⟨key, hcontents, hleft⟩ := Secret.ofContents?_of_trim ht
    have hkey := Environment.get?_of_layer hlayer
    simp only [Secret.load, hpath, hread, hcontents] at hkey
    exact ⟨key, (Except.ok.inj hkey).symm, hleft⟩

theorem Secret.not_blank_of_trim (h : Text.trim key.text = k.toBase64) : key.isBlank = false := by
  have hne : k.toBase64.isEmpty = false := String.isEmpty_eq_false_iff.mpr k.toBase64_ne_empty
  simp [isBlank, Text.nonBlank?, h, hne]

/-- Settings whose key has the text of a key, blanks aside, give the codec of that key. -/
theorem Resolved.codec_withKey (r : Resolved) (h : Text.trim key.text = k.toBase64) :
    (r.withKey key).sealing.codec = .ok (.keyed k) := by
  have hne : k.toBase64.isEmpty = false := String.isEmpty_eq_false_iff.mpr k.toBase64_ne_empty
  have hread : Key.ofBase64 k.toBase64 = .ok k := Key.ofBase64_of_trim (Base64.trim_encode .standard k.bytes)
  have hcodec : Codec.ofKeyText (some key.text) = .ok (.keyed k) := by
    simp only [Codec.ofKeyText, Option.bind_some, Text.nonBlank?, h, hne, Bool.false_eq_true, if_false, hread]
    rfl
  have hkey : (r.withKey key).sealing.codec = (Codec.ofKeyText (some key.text)).mapError .codecKey := rfl
  rw [hkey, hcodec]
  rfl

/-- A deployment in which a source supplies a text as the key of the codec, and has the last say on it. -/
structure Deployment (text : String) where
  files : Storage
  before : List Source
  source : Source
  after : List Source
  layer : Layer
  supplies : source.Supplies files text layer
  decides : source.Decides files before after

def Deployment.load (d : Deployment text) : Except Error Resolved :=
  Settings.load d.files (d.before ++ d.source :: d.after)

/-- The settings that a deployment would have if its source said nothing of the codec. -/
def Deployment.loadKeyless (d : Deployment text) : Except Error Resolved :=
  Settings.load d.files (d.before ++ .fixed d.source.rank d.layer.keyless :: d.after)

theorem Deployment.exists_key (d : Deployment text) (ht : k.Prints text) :
    ∃ key, Text.trim key.text = k.toBase64 ∧ d.load = d.loadKeyless.map (·.withKey key) := by
  obtain ⟨key, hkey, htrim⟩ := d.supplies.exists_key ht.trim_eq
  exact ⟨key, htrim, load_with_key d.supplies.load_eq hkey (Secret.not_blank_of_trim htrim) d.decides⟩

theorem Deployment.codec_eq (d : Deployment text) (ht : k.Prints text) {r : Resolved} (hr : d.load = .ok r) :
    r.sealing.isKeyed = true ∧ r.sealing.codec = .ok (.keyed k) := by
  obtain ⟨key, htrim, hload⟩ := d.exists_key ht
  rw [hr] at hload
  cases hkeyless : d.loadKeyless with
  | error e =>
    rw [hkeyless] at hload
    cases hload
  | ok r' =>
    rw [hkeyless] at hload
    obtain rfl : r = r'.withKey key := Except.ok.inj hload
    exact ⟨rfl, r'.codec_withKey htrim⟩

/-- **Every way to provision a key gives the same codec.** Print a key, put any blanks around the text, and supply it
in a document, in the variable, or in the file that the other variable names, where no source with more say
sets a key. The settings are accepted exactly if they are without the key, and they differ from those in the key
alone. They are keyed, and their codec has just the bytes and the size of the key. So what one such deployment
seals every other one opens. -/
theorem provisioned_key_opens_everywhere (k : Key) {text text' : String} (ht : k.Prints text) (ht' : k.Prints text')
    (d : Deployment text) (d' : Deployment text') :
    (∃ key, d.load = d.loadKeyless.map (·.withKey key)) ∧
    (∀ r, d.load = .ok r → r.sealing.isKeyed = true ∧ r.sealing.codec = .ok (.keyed k)) ∧
    ∀ r r' c c', d.load = .ok r → d'.load = .ok r' → r.sealing.codec = .ok c → r'.sealing.codec = .ok c' →
      (∀ plain source out, (c.sealBytes plain source).1 = .ok out → c'.openBytes out = .ok plain) ∧
      ∀ plain source out, (c.sealText plain source).1 = .ok out → c'.openText out = .ok plain := by
  refine ⟨?_, fun r hr => d.codec_eq ht hr, ?_⟩
  · obtain ⟨key, -, hload⟩ := d.exists_key ht
    exact ⟨key, hload⟩
  · intro r r' c c' hr hr' hc hc'
    obtain rfl := Except.ok.inj (hc.symm.trans (d.codec_eq ht hr).2)
    obtain rfl := Except.ok.inj (hc'.symm.trans (d'.codec_eq ht' hr').2)
    exact ⟨fun _ _ _ h => Sealing.openBytes_of_sealBytes h, fun _ _ _ h => Sealing.openText_of_sealText h⟩

def exampleKey : Key := ⟨[0, 1, 2, 3, 4, 5, 6, 7, 8, 9, 10, 11, 12, 13, 14, 15], .aes128, rfl⟩

theorem exampleKey_prints_bare : exampleKey.Prints "AAECAwQFBgcICQoLDA0ODw==" := by
  have htext : "AAECAwQFBgcICQoLDA0ODw==" = "" ++ exampleKey.toBase64 ++ "" := by decide +kernel
  rw [htext]
  exact .intro (List.all_eq_true.mp (by decide)) (List.all_eq_true.mp (by decide))

theorem exampleKey_prints_blank : exampleKey.Prints "\tAAECAwQFBgcICQoLDA0ODw== \r\n" := by
  have htext : "\tAAECAwQFBgcICQoLDA0ODw== \r\n" = "\t" ++ exampleKey.toBase64 ++ " \r\n" := by decide +kernel
  rw [htext]
  exact .intro (List.all_eq_true.mp (by decide)) (List.all_eq_true.mp (by decide))

/-- The key is in a document, and the variable above it is empty. -/
def documentDeployment : Deployment "AAECAwQFBgcICQoLDA0ODw==" where
  files := keyedFiles
  before := []
  source := .file "security.toml"
  after := [.environment (keyVariable "")]
  layer := keyedLayer
  supplies := .document readText_keyedFiles ofDocument?_keyedDocument rfl
  decides := by
    constructor
    · exact List.forall_mem_nil _
    · rintro u hu -
      obtain rfl := List.mem_singleton.mp hu
      exact Source.codecKey?_of_lacksKey (.value rfl (.inr rfl)) layer_emptyVariable

/-- The contents of a key file, with blanks on both sides. -/
def keyFiles : Storage := .ofObservations [("/run/key", .ok (.file (Bytes.ofText "\tAAECAwQFBgcICQoLDA0ODw== \r\n")))]

def keyFileVariable : Environment := fun name =>
  if name = Secret.fileVariable codecKeyVariable then some " /run/key " else none

theorem layer_keyFileVariable :
    keyFileVariable.layer keyFiles = .ok (keyVariableLayer (some ⟨"\tAAECAwQFBgcICQoLDA0ODw== "⟩)) := by
  decide +kernel

theorem path?_keyFileVariable : Secret.path? keyFileVariable codecKeyVariable = some "/run/key" := by decide +kernel

def staleLayer : Layer := { keyedLayer with sealing := some ⟨some ⟨"stale"⟩⟩ }

/-- The key is in a file, above the other key of a document. -/
def keyFileDeployment : Deployment "\tAAECAwQFBgcICQoLDA0ODw== \r\n" where
  files := keyFiles
  before := [.fixed .file staleLayer]
  source := .environment keyFileVariable
  after := []
  layer := keyVariableLayer (some ⟨"\tAAECAwQFBgcICQoLDA0ODw== "⟩)
  supplies := .keyFile layer_keyFileVariable path?_keyFileVariable (by decide +kernel)
  decides := by
    constructor
    · intro u hu hrank
      obtain rfl := List.mem_singleton.mp hu
      exact absurd hrank (by decide)
    · exact List.forall_mem_nil _

/-- What is sealed under the key of the document opens under that of the file. -/
theorem document_key_opens_from_key_file :
    ∃ r r' c c', documentDeployment.load = .ok r ∧ keyFileDeployment.load = .ok r' ∧
      r.sealing.codec = .ok c ∧ r'.sealing.codec = .ok c' ∧ c' = .keyed exampleKey ∧
      ∀ plain source out, (c.sealText plain source).1 = .ok out → c'.openText out = .ok plain := by
  have hresolve : (keyedLayer.under (keyVariableLayer none)).resolve.toOption.any (·.sealing.isKeyed) = true := by
    decide +kernel
  have hresolve' : (staleLayer.under keyFileDeployment.layer).resolve.toOption.any (·.sealing.isKeyed) = true := by
    decide +kernel
  obtain ⟨r, hr, -⟩ := any_toOption.mp hresolve
  obtain ⟨r', hr', -⟩ := any_toOption.mp hresolve'
  have hload : documentDeployment.load = .ok r :=
    (load_under_environment load_keyedDocument layer_emptyVariable).trans hr
  have hstale : (Source.fixed .file staleLayer).load keyFiles = .ok staleLayer := rfl
  have hload' : keyFileDeployment.load = .ok r' := (load_under_environment hstale layer_keyFileVariable).trans hr'
  obtain ⟨-, hkeyed, hopens⟩ := provisioned_key_opens_everywhere exampleKey exampleKey_prints_bare
    exampleKey_prints_blank documentDeployment keyFileDeployment
  obtain ⟨-, hkeyed', -⟩ := provisioned_key_opens_everywhere exampleKey exampleKey_prints_blank
    exampleKey_prints_bare keyFileDeployment documentDeployment
  have hcodec := (hkeyed r hload).2
  have hcodec' := (hkeyed' r' hload').2
  exact ⟨r, r', _, _, hload, hload', hcodec, hcodec', rfl, (hopens r r' _ _ hload hload' hcodec hcodec').2⟩

end Settings

end DeviceTrust
