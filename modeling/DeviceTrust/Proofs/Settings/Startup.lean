import DeviceTrust.Proofs.Outcome
import DeviceTrust.Proofs.Settings.Layering
import DeviceTrust.Proofs.Text.Trim
import DeviceTrust.Services

/-!
# Settings that were accepted can be started with

Settings are checked when they are resolved, and what is built from them checks its own part again:
the cache of a key set its intervals and its address, a keyring that it has keys, the authority its
trust store and the identifier of its signing key. None of these later checks can fail on settings
that were accepted. What remains are the files that keys come from and the text of the codec's key.
-/

namespace DeviceTrust

namespace Settings

variable {s : Resolved} {k : KeySetSettings}

/-- What is known of key set settings once they are accepted. -/
structure KeySetSettings.Sound (k : KeySetSettings) : Prop where
  address : (Text.nonBlank? k.uri).isSome = true
  refreshInterval : k.refreshInterval ≠ 0
  timeout : k.timeout ≠ 0
  intervals : k.minRefreshInterval ≤ k.refreshInterval

theorem KeySetLayer.sound_of_resolve {l : KeySetLayer} (h : l.resolve = .ok (some k)) : k.Sound := by
  unfold resolve at h
  split at h
  · cases h
  · rename_i uri huri
    have haddress : (Text.nonBlank? uri).isSome = true := by
      obtain ⟨-, haddress⟩ := Option.filter_eq_some_iff.mp huri
      exact haddress
    simp only at h
    split at h
    · cases h
    · rename_i hrefresh
      split at h
      · cases h
      · split at h
        · cases h
        · rename_i htimeout
          split at h
          · cases h
          · rename_i hintervals
            cases h
            exact ⟨haddress, hrefresh, htimeout, Nat.not_lt.mp hintervals⟩

/-- The cache asks no more of its configuration than the settings were held to. -/
theorem KeySetSettings.Sound.validate (h : k.Sound) : k.cacheConfig.validate = .ok () := by
  have haddress : (Text.nonBlank? k.uri).isNone = false := by rw [← Option.not_isSome, h.address]; rfl
  have hrefresh : Duration.ofSeconds k.refreshInterval ≠ 0 := Nat.mul_ne_zero h.refreshInterval (by decide)
  have htimeout : Duration.ofSeconds k.timeout ≠ 0 := Nat.mul_ne_zero h.timeout (by decide)
  have hintervals : ¬ Duration.ofSeconds k.refreshInterval < Duration.ofSeconds k.minRefreshInterval :=
    Nat.not_lt.mpr (Nat.mul_le_mul_right 1000 h.intervals)
  simp only [KeySet.CacheConfig.validate, KeySet.CacheConfig.fault?, cacheConfig, haddress, Bool.false_eq_true,
    if_false, hrefresh, htimeout, hintervals]

theorem TokenLayer.signingKid_of_resolve {l : TokenLayer} {t : TokenSettings} (h : l.resolve = .ok t) :
    (Text.nonBlank? t.signingKid).isSome = true := by
  unfold resolve at h
  simp only at h
  split at h
  · cases h
  · rename_i hkid
    split at h
    · cases h
    · split at h
      · cases h
      · cases h
        exact Option.isSome_iff_ne_none.mpr fun hnone => hkid (Option.isNone_iff_eq_none.mpr hnone)

theorem SealingLayer.nonBlank_of_resolve (l : SealingLayer) :
    ∀ key ∈ l.resolve.key, (Text.nonBlank? key.text).isSome = true := by
  intro key hkey
  obtain ⟨-, hblank⟩ := Option.filter_eq_some_iff.mp hkey
  rwa [Secret.isBlank, ← Option.not_isSome, Bool.not_not] at hblank

/-- What is known of settings once they are accepted. -/
structure Resolved.Sound (s : Resolved) : Prop where
  codecKey : ∀ key ∈ s.sealing.key, (Text.nonBlank? key.text).isSome = true
  signingKid : (Text.nonBlank? s.token.signingKid).isSome = true
  keySet : ∀ k ∈ s.keySet, k.Sound
  trustStore : s.keySet = none → s.token.keyring ≠ []

theorem Layer.sound_of_resolve {l : Layer} (h : l.resolve = .ok s) : s.Sound := by
  rw [resolve_eq] at h
  obtain ⟨token, htoken, h⟩ := bind_eq_ok.mp h
  obtain ⟨keySet, hkeySet, h⟩ := bind_eq_ok.mp h
  split at h
  · cases h
  · rename_i htrust
    cases h
    refine ⟨SealingLayer.nonBlank_of_resolve _, TokenLayer.signingKid_of_resolve htoken, ?_, ?_⟩
    · rintro k rfl
      exact KeySetLayer.sound_of_resolve hkeySet
    · rintro rfl hempty
      exact htrust (by rw [hempty]; rfl)

end Settings

namespace Token

variable {α β ε : Type} {files : Storage} {paths paths' : List String} {fault : String → KeyFileError → ε → Prop}
  {P : α → Prop} {Q : β → Prop} {r : Except ε α} {entries : List (String × String)} {base : KeySet}

def Loadable (files : Storage) (path : String) : Prop := ∃ der, loadKey files path = .ok der

/-- A result that only the keys of some files stand in the way of: it is there, with a property, if all of them
can be loaded, and otherwise it is an error about one that cannot. -/
inductive FromKeys (files : Storage) (paths : List String) (fault : String → KeyFileError → ε → Prop)
    (P : α → Prop) : Except ε α → Prop where
  | ok {x : α} (hall : ∀ path ∈ paths, Loadable files path) (hx : P x) : FromKeys files paths fault P (.ok x)
  | error {path : String} {cause : KeyFileError} {e : ε} (hpath : path ∈ paths)
      (hcause : loadKey files path = .error cause) (hfault : fault path cause e) :
    FromKeys files paths fault P (.error e)

theorem FromKeys.exists_ok_iff (h : FromKeys files paths fault P r) :
    (∃ x, r = .ok x) ↔ ∀ path ∈ paths, Loadable files path := by
  cases h with
  | ok hall _ => exact ⟨fun _ => hall, fun _ => ⟨_, rfl⟩⟩
  | error hpath hcause _ =>
    refine ⟨nofun, fun hall => ?_⟩
    obtain ⟨der, hder⟩ := hall _ hpath
    rw [hcause] at hder
    cases hder

theorem FromKeys.of_ok {x : α} (h : FromKeys files paths fault P r) (hr : r = .ok x) : P x := by
  cases h with
  | ok _ hx =>
    cases hr
    exact hx
  | error _ _ _ => cases hr

theorem FromKeys.of_error {e : ε} (h : FromKeys files paths fault P r) (hr : r = .error e) :
    ∃ path ∈ paths, ∃ cause, loadKey files path = .error cause ∧ fault path cause e := by
  cases h with
  | ok _ _ => cases hr
  | error hpath hcause hfault =>
    cases hr
    exact ⟨_, hpath, _, hcause, hfault⟩

theorem FromKeys.bind {f : α → Except ε β} (h : FromKeys files paths fault P r)
    (hf : ∀ x, P x → FromKeys files paths' fault Q (f x)) : FromKeys files (paths ++ paths') fault Q (r >>= f) := by
  cases h with
  | error hpath hcause hfault => exact .error (List.mem_append_left _ hpath) hcause hfault
  | @ok x hall hx =>
    have hnext := hf x hx
    rw [ok_bind]
    generalize f x = r' at hnext ⊢
    cases hnext with
    | ok hall' hy => exact .ok (List.forall_mem_append.mpr ⟨hall, hall'⟩) hy
    | error hpath hcause hfault => exact .error (List.mem_append_right _ hpath) hcause hfault

/-- The files of a keyring are loaded up to the first that cannot be, and each leaves a key. -/
theorem Keyring.addFiles_fromKeys (files : Storage) (base : KeySet) (entries : List (String × String)) :
    FromKeys files (entries.map Prod.snd) (fun _ cause e => e = .keyFile cause)
      (fun keys => entries ≠ [] ∨ base.isEmpty = false → keys.isEmpty = false) (addFiles files base entries) := by
  induction entries generalizing base with
  | nil =>
    refine .ok nofun ?_
    rintro (h | h)
    · exact absurd rfl h
    · exact h
  | cons e rest ih =>
    obtain ⟨kid, path⟩ := e
    rw [addFiles, loadVerificationKey]
    cases hload : loadKey files path with
    | error cause => exact .error List.mem_cons_self hload rfl
    | ok der =>
      have hinserted : (base.insert kid (.rsaDocument der)).isEmpty = false :=
        List.isEmpty_eq_false_iff.mpr (Named.insert_ne_nil _ _ _)
      have hrest := ih (base.insert kid (.rsaDocument der))
      show FromKeys _ _ _ _ (addFiles files (base.insert kid (.rsaDocument der)) rest)
      generalize addFiles files (base.insert kid (.rsaDocument der)) rest = r at hrest ⊢
      cases hrest with
      | ok hall hkeys => exact .ok (List.forall_mem_cons.mpr ⟨⟨der, hload⟩, hall⟩) fun _ => hkeys (.inr hinserted)
      | error hpath hcause hfault => exact .error (List.mem_cons_of_mem _ hpath) hcause hfault

/-- A keyring of at least one entry has keys. -/
theorem Keyring.load_fromKeys (files : Storage) (hentries : entries ≠ []) :
    FromKeys files (entries.map Prod.snd) (fun _ cause e => e = .keyFile cause)
      (fun ring => ring.keys.isEmpty = false) (load files entries) := by
  have hfiles := addFiles_fromKeys files .empty entries
  rw [load]
  generalize addFiles files .empty entries = r at hfiles ⊢
  cases hfiles with
  | error hpath hcause hfault => exact .error hpath hcause hfault
  | ok hall hkeys =>
    have hnonempty := hkeys (.inl hentries)
    simp only [hnonempty, Bool.false_eq_true, if_false]
    exact .ok hall hnonempty

end Token

namespace Settings

variable {s : Resolved} {k : KeySetSettings} {files : Storage}

open Token (loadKey Loadable FromKeys)

/-- What a start reports of a key file that cannot be loaded. -/
inductive KeyFault (path : String) (cause : Token.KeyFileError) : StartupError → Prop where
  | signingKey : KeyFault path cause (.signingKey path cause)
  | keyring : KeyFault path cause (.keyring (.keyFile cause))

/-- The files whose keys an authority needs: that of its signing key, and those of the keyring where that is the
trust store. -/
def Resolved.neededKeyFiles (s : Resolved) : List String :=
  s.token.signingKeyPath.toList ++ if s.keySet.isSome then [] else s.token.keyring.map Prod.snd

theorem TokenSettings.loadSigningKey_fromKeys (t : TokenSettings) :
    FromKeys files t.signingKeyPath.toList KeyFault
      (fun key => key.map Token.SigningKey.kid = t.signingKeyPath.map fun _ => t.signingKid)
      (t.loadSigningKey files) := by
  unfold loadSigningKey
  cases t.signingKeyPath with
  | none => exact .ok nofun rfl
  | some path =>
    simp only [Token.SigningKey.load]
    cases hload : loadKey files path with
    | ok der => exact .ok (List.forall_mem_singleton.mpr ⟨der, hload⟩) rfl
    | error cause => exact .error (List.mem_singleton_self path) hload .signingKey

theorem KeySetSettings.Sound.exists_startCache (h : k.Sound) (network : KeySet.Network) (now : Int) :
    ∃ cache, k.startCache network now = .ok cache := by
  have hnew : KeySet.Cache.new k.cacheConfig = .ok { config := k.cacheConfig } := by
    rw [KeySet.Cache.new, h.validate]
  unfold startCache KeySet.Schedule.launch
  rw [hnew]
  exact ⟨_, rfl⟩

/-- The trust store is the one that the settings name, and it has keys if it is a keyring. -/
def Resolved.Stores (s : Resolved) (store : Token.TrustStore) : Prop :=
  (s.keySet.isSome = true ∧ ∃ cache, store = .cache cache) ∨
    (s.keySet = none ∧ ∃ ring, store = .keyring ring ∧ ring.keys.isEmpty = false)

theorem Resolved.Sound.trustStore_fromKeys (h : s.Sound) (network : KeySet.Network) (now : Int) :
    FromKeys files (if s.keySet.isSome then [] else s.token.keyring.map Prod.snd) KeyFault s.Stores
      (s.trustStore files network now) := by
  unfold Resolved.trustStore
  cases hkeySet : s.keySet with
  | some k =>
    obtain ⟨cache, hcache⟩ := (h.keySet k hkeySet).exists_startCache network now
    dsimp only
    rw [hcache]
    exact .ok nofun (.inl ⟨by rw [hkeySet]; rfl, cache, rfl⟩)
  | none =>
    have hring := Token.Keyring.load_fromKeys files (h.trustStore hkeySet)
    dsimp only
    generalize Token.Keyring.load files s.token.keyring = r at hring ⊢
    cases hring with
    | ok hall hkeys => exact .ok hall (.inr ⟨hkeySet, _, rfl, hkeys⟩)
    | error hpath hcause hfault =>
      obtain rfl := hfault
      exact .error hpath hcause .keyring

/-- **An authority needs nothing but its key files.** -/
theorem Resolved.Sound.authority_fromKeys (h : s.Sound) (files : Storage) (network : KeySet.Network) (now : Int) :
    FromKeys files s.neededKeyFiles KeyFault
      (fun a => s.Stores a.trustStore ∧ a.signingKid = s.token.signingKeyPath.map fun _ => s.token.signingKid)
      (s.authority files network now) := by
  refine s.token.loadSigningKey_fromKeys.bind fun key hkid => ?_
  rw [← List.append_nil (ite _ _ _)]
  refine (h.trustStore_fromKeys network now).bind fun store hstore => ?_
  have hnamed : key.any (·.kid.isEmpty) = false := by
    cases key with
    | none => rfl
    | some key =>
      obtain ⟨path, -, hsame⟩ := Option.map_eq_some_iff.mp hkid.symm
      rw [Option.any_some, ← hsame]
      exact String.isEmpty_eq_false_iff.mpr (Text.ne_empty_of_nonBlank h.signingKid)
  rw [Token.Authority.build]
  simp only [hnamed, Bool.false_eq_true, if_false]
  exact .ok nofun ⟨hstore, hkid⟩

/-- A codec without a key needs nothing; one with a key needs its text to be a key. -/
theorem Resolved.Sound.codec_eq (h : s.Sound) :
    s.sealing.codec = match s.sealing.key with
      | none => .ok .passthrough
      | some key => ((Sealing.Key.ofBase64 key.text).map Sealing.Codec.keyed).mapError .codecKey := by
  unfold SealingSettings.codec
  cases hkey : s.sealing.key with
  | none => rfl
  | some key =>
    have htext := Text.nonBlank?_of_isSome (h.codecKey key hkey)
    rw [Option.map_some, Sealing.Codec.ofKeyText, Option.bind_some, htext]
    simp only [Sealing.Key.ofBase64, Text.trim_trim]

theorem Resolved.Sound.codec_eq_error_iff (h : s.Sound) {e : StartupError} :
    s.sealing.codec = .error e ↔
      ∃ key cause, s.sealing.key = some key ∧ Sealing.Key.ofBase64 key.text = .error cause ∧ e = .codecKey cause := by
  rw [h.codec_eq]
  cases s.sealing.key with
  | none => exact ⟨nofun, fun ⟨_, _, hkey, _⟩ => nomatch hkey⟩
  | some key =>
    dsimp only
    cases hread : Sealing.Key.ofBase64 key.text with
    | ok k =>
      refine ⟨nofun, ?_⟩
      rintro ⟨_, cause, ⟨rfl⟩, hcause, rfl⟩
      rw [hread] at hcause
      cases hcause
    | error cause =>
      constructor
      · rintro ⟨rfl⟩
        exact ⟨key, cause, rfl, hread, rfl⟩
      · rintro ⟨_, cause', ⟨rfl⟩, hcause, rfl⟩
        rw [hread] at hcause
        cases hcause
        rfl

/-- **Accepted settings can be started with.** The cache of their key set accepts its configuration, there is a
keyring wherever there is no key set, and the identifier of the signing key is not empty. So the authority is built
whenever the key files that it needs can be loaded, from the trust store that the settings name, and otherwise one
of those files is what it fails on. The codec fails on the text of the key or not at all. -/
theorem accepted_settings_start {l : Layer} (haccepted : l.resolve = .ok s) :
    ((∀ k, s.keySet = some k → k.cacheConfig.validate = .ok ()) ∧ (s.keySet = none → s.token.keyring ≠ []) ∧
      s.token.signingKid ≠ "") ∧
    (∀ files network now,
      ((∃ a, s.authority files network now = .ok a) ↔ ∀ path ∈ s.neededKeyFiles, Loadable files path) ∧
      (∀ a, s.authority files network now = .ok a → s.Stores a.trustStore ∧
        a.signingKid = s.token.signingKeyPath.map fun _ => s.token.signingKid) ∧
      (∀ e, s.authority files network now = .error e →
        ∃ path ∈ s.neededKeyFiles, ∃ cause, loadKey files path = .error cause ∧
          (e = .signingKey path cause ∨ e = .keyring (.keyFile cause)))) ∧
    (∀ e, s.sealing.codec = .error e ↔
      ∃ key cause, s.sealing.key = some key ∧ Sealing.Key.ofBase64 key.text = .error cause ∧
        e = .codecKey cause) := by
  have h := Layer.sound_of_resolve haccepted
  refine ⟨⟨fun k hk => (h.keySet k hk).validate, h.trustStore, Text.ne_empty_of_nonBlank h.signingKid⟩, ?_, ?_⟩
  · intro files network now
    have hauthority := h.authority_fromKeys files network now
    refine ⟨hauthority.exists_ok_iff, fun a ha => hauthority.of_ok ha, fun e he => ?_⟩
    obtain ⟨path, hpath, cause, hcause, hfault⟩ := hauthority.of_error he
    refine ⟨path, hpath, cause, hcause, ?_⟩
    cases hfault with
    | signingKey => exact .inl rfl
    | keyring => exact .inr rfl
  · exact fun e => h.codec_eq_error_iff

/-- A key set with the longest intervals there are, next to a keyring that is of no use and a key for the codec. Of
all files only that of the signing key matters. -/
theorem accepted_settings_start_with_key_set :
    let l : Layer :=
      { sealing := some { key := some ⟨" c2hvcnQ= "⟩ }
        token := some { signingKeyPath := some "signing.pem", keyring := some [("old", "old.pem")] }
        keySet := some
          { uri := some " test://keys "
            refreshInterval := some 18446744073709551615
            minRefreshInterval := some 18446744073709551615
            timeout := some 18446744073709551615 } }
    ∃ s, l.resolve = .ok s ∧ (∃ k, s.keySet = some k ∧ k.cacheConfig.validate = .ok ()) ∧
      (∀ files network now, (∃ a, s.authority files network now = .ok a) ↔ Loadable files "signing.pem") ∧
      ∃ cause, s.sealing.codec = .error (.codecKey cause) := by
  intro l
  let k : KeySetSettings := ⟨" test://keys ", 18446744073709551615, 18446744073709551615, 18446744073709551615⟩
  let policy : Token.ClassPolicy := ⟨[Token.defaultSigningKid], []⟩
  let token : TokenSettings :=
    ⟨Token.defaultSigningKid, some "signing.pem", .default, none, [("old", "old.pem")], policy, policy, {},
      usualLifetime⟩
  let s : Resolved := ⟨⟨some ⟨" c2hvcnQ= "⟩⟩, token, some k, {}⟩
  have hs : l.resolve = .ok s := by decide +kernel
  obtain ⟨⟨hvalidates, -, -⟩, hstarts, hcodec⟩ := accepted_settings_start hs
  have hbytes : Base64.decode .standard (Text.trim " c2hvcnQ= ") = .ok [0x73, 0x68, 0x6f, 0x72, 0x74] := by
    decide +kernel
  have hread : Sealing.Key.ofBase64 " c2hvcnQ= " = .error (.keySize 5) := by
    rw [Sealing.Key.ofBase64, hbytes]
    rfl
  refine ⟨s, hs, ⟨k, rfl, hvalidates k rfl⟩, fun files network now => ?_, .keySize 5, ?_⟩
  · exact (hstarts files network now).1.trans List.forall_mem_singleton
  · exact (hcodec _).mpr ⟨_, _, rfl, hread, rfl⟩

end Settings

end DeviceTrust
