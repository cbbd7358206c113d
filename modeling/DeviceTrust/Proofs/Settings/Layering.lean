import DeviceTrust.Settings.Resolved

/-!
# Layers, setting by setting

A layer is read here through its single settings, of which there are twenty-three. Laying one
layer over another is then one rule, whatever the setting and however deep it lies: the upper
layer answers if it can, else the lower one does. So layers may be grouped as one likes, and what
they resolve to depends on their single settings alone. A section that is missing and one in
which nothing is set differ as data, and `Layer.complete` is where that difference ends.
-/

namespace DeviceTrust.Settings

inductive PolicySetting where
  | allowedKids
  | capabilities
  deriving DecidableEq, Repr

inductive IssuanceSetting where
  | issuer
  | audience
  | subject
  | partnerId
  | trust
  | capabilities
  deriving DecidableEq, Repr

inductive TokenSetting where
  | signingKid
  | signingKeyPath
  | verifier
  | audience
  | keyring
  | defaultLifetime
  | api (s : PolicySetting)
  | device (s : PolicySetting)
  | issuance (s : IssuanceSetting)
  deriving DecidableEq, Repr

inductive KeySetSetting where
  | uri
  | refreshInterval
  | minRefreshInterval
  | timeout
  deriving DecidableEq, Repr

inductive LoggingSetting where
  | level
  | format
  deriving DecidableEq, Repr

/-- The single settings of a layer. -/
inductive Setting where
  | codecKey
  | token (s : TokenSetting)
  | keySet (s : KeySetSetting)
  | logging (s : LoggingSetting)
  deriving DecidableEq, Repr

def PolicySetting.Value : PolicySetting → Type
  | .allowedKids | .capabilities => List String

def IssuanceSetting.Value : IssuanceSetting → Type
  | .issuer | .audience | .subject | .partnerId | .trust => String
  | .capabilities => List String

def TokenSetting.Value : TokenSetting → Type
  | .signingKid | .signingKeyPath | .audience => String
  | .verifier => Token.VerifierKind
  | .keyring => List (String × String)
  | .defaultLifetime => Nat
  | .api s | .device s => s.Value
  | .issuance s => s.Value

def KeySetSetting.Value : KeySetSetting → Type
  | .uri => String
  | .refreshInterval | .minRefreshInterval | .timeout => Nat

def LoggingSetting.Value : LoggingSetting → Type
  | .level => String
  | .format => LogFormat

def Setting.Value : Setting → Type
  | .codecKey => Secret
  | .token s => s.Value
  | .keySet s => s.Value
  | .logging s => s.Value

def PolicyLayer.get? (l : PolicyLayer) : (s : PolicySetting) → Option s.Value
  | .allowedKids => l.allowedKids
  | .capabilities => l.capabilities

def IssuanceLayer.get? (l : IssuanceLayer) : (s : IssuanceSetting) → Option s.Value
  | .issuer => l.issuer
  | .audience => l.audience
  | .subject => l.subject
  | .partnerId => l.partnerId
  | .trust => l.trust
  | .capabilities => l.capabilities

def TokenLayer.get? (l : TokenLayer) : (s : TokenSetting) → Option s.Value
  | .signingKid => l.signingKid
  | .signingKeyPath => l.signingKeyPath
  | .verifier => l.verifier
  | .audience => l.audience
  | .keyring => l.keyring
  | .defaultLifetime => l.defaultLifetime
  | .api s => l.api.bind (·.get? s)
  | .device s => l.device.bind (·.get? s)
  | .issuance s => l.issuance.bind (·.get? s)

def KeySetLayer.get? (l : KeySetLayer) : (s : KeySetSetting) → Option s.Value
  | .uri => l.uri
  | .refreshInterval => l.refreshInterval
  | .minRefreshInterval => l.minRefreshInterval
  | .timeout => l.timeout

def LoggingLayer.get? (l : LoggingLayer) : (s : LoggingSetting) → Option s.Value
  | .level => l.level
  | .format => l.format

/-- What a layer sets a setting to, if it sets it. -/
def Layer.get? (l : Layer) : (s : Setting) → Option s.Value
  | .codecKey => l.sealing.bind SealingLayer.key
  | .token s => l.token.bind (·.get? s)
  | .keySet s => l.keySet.bind (·.get? s)
  | .logging s => l.logging.bind (·.get? s)

section Sections

variable {α β : Type} {lay : α → α → α} {get : α → Option β}

/-- What holds of a setting in two sections holds of it in the sections where they may be missing. -/
theorem bind_laidSection (h : ∀ a b, get (lay a b) = (get b).or (get a)) (x y : Option α) :
    (laidSection lay x y).bind get = (y.bind get).or (x.bind get) := by
  cases x with
  | none => cases y <;> simp [laidSection]
  | some a =>
    cases y with
    | none => simp [laidSection]
    | some b => exact h a b

theorem laid_assoc (x y z : Option α) : laid (laid x y) z = laid x (laid y z) := (Option.or_assoc).symm

theorem laidSection_assoc (h : ∀ a b c, lay (lay a b) c = lay a (lay b c)) (x y z : Option α) :
    laidSection lay (laidSection lay x y) z = laidSection lay x (laidSection lay y z) := by
  cases x <;> cases y <;> cases z <;> simp [laidSection, h]

theorem laidSection_none (x : Option α) : laidSection lay x none = x := by cases x <;> rfl

theorem none_laidSection (x : Option α) : laidSection lay none x = x := by cases x <;> rfl

end Sections

theorem PolicyLayer.get?_under (a b : PolicyLayer) (s : PolicySetting) :
    (a.under b).get? s = (b.get? s).or (a.get? s) := by
  cases s <;> rfl

theorem IssuanceLayer.get?_under (a b : IssuanceLayer) (s : IssuanceSetting) :
    (a.under b).get? s = (b.get? s).or (a.get? s) := by
  cases s <;> rfl

theorem TokenLayer.get?_under (a b : TokenLayer) (s : TokenSetting) :
    (a.under b).get? s = (b.get? s).or (a.get? s) := by
  cases s with
  | api s => exact bind_laidSection (fun a b => PolicyLayer.get?_under a b s) a.api b.api
  | device s => exact bind_laidSection (fun a b => PolicyLayer.get?_under a b s) a.device b.device
  | issuance s => exact bind_laidSection (fun a b => IssuanceLayer.get?_under a b s) a.issuance b.issuance
  | _ => rfl

theorem KeySetLayer.get?_under (a b : KeySetLayer) (s : KeySetSetting) :
    (a.under b).get? s = (b.get? s).or (a.get? s) := by
  cases s <;> rfl

theorem LoggingLayer.get?_under (a b : LoggingLayer) (s : LoggingSetting) :
    (a.under b).get? s = (b.get? s).or (a.get? s) := by
  cases s <;> rfl

/-- **The upper layer answers if it can**, else the lower one does. -/
theorem Layer.get?_under (a b : Layer) (s : Setting) : (a.under b).get? s = (b.get? s).or (a.get? s) := by
  cases s with
  | codecKey => exact bind_laidSection (fun _ _ => rfl) a.sealing b.sealing
  | token s => exact bind_laidSection (fun a b => TokenLayer.get?_under a b s) a.token b.token
  | keySet s => exact bind_laidSection (fun a b => KeySetLayer.get?_under a b s) a.keySet b.keySet
  | logging s => exact bind_laidSection (fun a b => LoggingLayer.get?_under a b s) a.logging b.logging

theorem PolicyLayer.under_assoc (a b c : PolicyLayer) : (a.under b).under c = a.under (b.under c) := by
  simp only [under, laid_assoc]

theorem IssuanceLayer.under_assoc (a b c : IssuanceLayer) : (a.under b).under c = a.under (b.under c) := by
  simp only [under, laid_assoc]

theorem TokenLayer.under_assoc (a b c : TokenLayer) : (a.under b).under c = a.under (b.under c) := by
  simp only [under, laid_assoc, laidSection_assoc PolicyLayer.under_assoc,
    laidSection_assoc IssuanceLayer.under_assoc]

theorem Layer.under_assoc (a b c : Layer) : (a.under b).under c = a.under (b.under c) := by
  have hsealing (a b c : SealingLayer) : (a.under b).under c = a.under (b.under c) := by
    simp only [SealingLayer.under, laid_assoc]
  have hkeySet (a b c : KeySetLayer) : (a.under b).under c = a.under (b.under c) := by
    simp only [KeySetLayer.under, laid_assoc]
  have hlogging (a b c : LoggingLayer) : (a.under b).under c = a.under (b.under c) := by
    simp only [LoggingLayer.under, laid_assoc]
  simp only [under, laidSection_assoc hsealing, laidSection_assoc TokenLayer.under_assoc, laidSection_assoc hkeySet,
    laidSection_assoc hlogging]

theorem Layer.under_empty (a : Layer) : a.under {} = a := by
  simp only [under, laidSection_none]

theorem Layer.empty_under (a : Layer) : ({} : Layer).under a = a := by
  simp only [under, none_laidSection]

def TokenLayer.complete (l : TokenLayer) : TokenLayer :=
  { l with api := some (l.api.getD {}), device := some (l.device.getD {}), issuance := some (l.issuance.getD {}) }

/-- A layer with all its sections, the missing ones as sections in which nothing is set. -/
def Layer.complete (l : Layer) : Layer where
  sealing := some (l.sealing.getD {})
  token := some (l.token.getD {}).complete
  keySet := some (l.keySet.getD {})
  logging := some (l.logging.getD {})

/-- A missing section resolves as one in which nothing is set. A key set section without an address is no key set,
as a missing one is none. -/
theorem Layer.resolve_eq (l : Layer) :
    l.resolve = (l.token.getD {}).resolve >>= fun token => (l.keySet.getD {}).resolve >>= fun keySet =>
      if token.keyring.isEmpty && keySet.isNone then .error (.inconsistent .noTrustStore)
      else .ok ⟨(l.sealing.getD {}).resolve, token, keySet, (l.logging.getD {}).resolve⟩ := by
  obtain ⟨sealing, token, keySet, logging⟩ := l
  cases keySet <;> rfl

theorem Layer.resolve_complete (l : Layer) : l.complete.resolve = l.resolve := by
  rw [resolve_eq, resolve_eq]
  rfl

/-- A setting of a section is the same whether or not a missing section is filled in. -/
theorem get_getD {α β : Type} (get : α → Option β) {silent : α} (h : get silent = none) (x : Option α) :
    get (x.getD silent) = x.bind get := by
  cases x with
  | none => exact h
  | some a => rfl

theorem PolicyLayer.get?_empty (s : PolicySetting) : ({} : PolicyLayer).get? s = none := by cases s <;> rfl

theorem IssuanceLayer.get?_empty (s : IssuanceSetting) : ({} : IssuanceLayer).get? s = none := by cases s <;> rfl

theorem TokenLayer.get?_empty (s : TokenSetting) : ({} : TokenLayer).get? s = none := by cases s <;> rfl

theorem KeySetLayer.get?_empty (s : KeySetSetting) : ({} : KeySetLayer).get? s = none := by cases s <;> rfl

theorem LoggingLayer.get?_empty (s : LoggingSetting) : ({} : LoggingLayer).get? s = none := by cases s <;> rfl

theorem Layer.get?_empty (s : Setting) : ({} : Layer).get? s = none := by cases s <;> rfl

theorem TokenLayer.get?_complete (l : TokenLayer) (s : TokenSetting) : l.complete.get? s = l.get? s := by
  cases s with
  | api s => exact get_getD (PolicyLayer.get? · s) (PolicyLayer.get?_empty s) l.api
  | device s => exact get_getD (PolicyLayer.get? · s) (PolicyLayer.get?_empty s) l.device
  | issuance s => exact get_getD (IssuanceLayer.get? · s) (IssuanceLayer.get?_empty s) l.issuance
  | _ => rfl

theorem Layer.get?_complete (l : Layer) (s : Setting) : l.complete.get? s = l.get? s := by
  cases s with
  | codecKey => exact get_getD SealingLayer.key rfl l.sealing
  | token s =>
    exact (TokenLayer.get?_complete _ s).trans (get_getD (TokenLayer.get? · s) (TokenLayer.get?_empty s) l.token)
  | keySet s => exact get_getD (KeySetLayer.get? · s) (KeySetLayer.get?_empty s) l.keySet
  | logging s => exact get_getD (LoggingLayer.get? · s) (LoggingLayer.get?_empty s) l.logging

theorem SealingLayer.ext_key {a b : SealingLayer} (h : a.key = b.key) : a = b := by
  cases a
  exact congrArg SealingLayer.mk h

theorem PolicyLayer.ext_get? {a b : PolicyLayer} (h : ∀ s, a.get? s = b.get? s) : a = b := by
  obtain ⟨_, _⟩ := a
  obtain ⟨_, _⟩ := b
  congr 1
  · exact h .allowedKids
  · exact h .capabilities

theorem IssuanceLayer.ext_get? {a b : IssuanceLayer} (h : ∀ s, a.get? s = b.get? s) : a = b := by
  obtain ⟨_, _, _, _, _, _⟩ := a
  obtain ⟨_, _, _, _, _, _⟩ := b
  congr 1
  · exact h .issuer
  · exact h .audience
  · exact h .subject
  · exact h .partnerId
  · exact h .trust
  · exact h .capabilities

theorem KeySetLayer.ext_get? {a b : KeySetLayer} (h : ∀ s, a.get? s = b.get? s) : a = b := by
  obtain ⟨_, _, _, _⟩ := a
  obtain ⟨_, _, _, _⟩ := b
  congr 1
  · exact h .uri
  · exact h .refreshInterval
  · exact h .minRefreshInterval
  · exact h .timeout

theorem LoggingLayer.ext_get? {a b : LoggingLayer} (h : ∀ s, a.get? s = b.get? s) : a = b := by
  obtain ⟨_, _⟩ := a
  obtain ⟨_, _⟩ := b
  congr 1
  · exact h .level
  · exact h .format

/-- Sections that may be missing, and that set the same, are the same once they are filled in. -/
theorem getD_eq_getD {α S : Type} {Value : S → Type} {get : α → (s : S) → Option (Value s)} {silent : α}
    (hext : ∀ {a b : α}, (∀ s, get a s = get b s) → a = b) (hsilent : ∀ s, get silent s = none) {x y : Option α}
    (h : ∀ s, x.bind (get · s) = y.bind (get · s)) : x.getD silent = y.getD silent := by
  apply hext
  intro s
  rw [get_getD (get · s) (hsilent s) x, h s, get_getD (get · s) (hsilent s) y]

theorem TokenLayer.complete_ext {a b : TokenLayer} (h : ∀ s, a.get? s = b.get? s) : a.complete = b.complete := by
  have hapi : a.api.getD {} = b.api.getD {} :=
    getD_eq_getD PolicyLayer.ext_get? PolicyLayer.get?_empty fun s => h (.api s)
  have hdevice : a.device.getD {} = b.device.getD {} :=
    getD_eq_getD PolicyLayer.ext_get? PolicyLayer.get?_empty fun s => h (.device s)
  have hissuance : a.issuance.getD {} = b.issuance.getD {} :=
    getD_eq_getD IssuanceLayer.ext_get? IssuanceLayer.get?_empty fun s => h (.issuance s)
  unfold complete
  congr 1
  · exact h .signingKid
  · exact h .signingKeyPath
  · exact h .verifier
  · exact h .audience
  · exact h .keyring
  · exact congrArg some hapi
  · exact congrArg some hdevice
  · exact congrArg some hissuance
  · exact h .defaultLifetime

theorem Layer.complete_ext {a b : Layer} (h : ∀ s, a.get? s = b.get? s) : a.complete = b.complete := by
  unfold complete
  congr 2
  · apply SealingLayer.ext_key
    rw [get_getD SealingLayer.key rfl, get_getD SealingLayer.key rfl]
    exact h .codecKey
  · apply TokenLayer.complete_ext
    intro s
    rw [get_getD (TokenLayer.get? · s) (TokenLayer.get?_empty s),
      get_getD (TokenLayer.get? · s) (TokenLayer.get?_empty s)]
    exact h (.token s)
  · exact getD_eq_getD KeySetLayer.ext_get? KeySetLayer.get?_empty fun s => h (.keySet s)
  · exact getD_eq_getD LoggingLayer.ext_get? LoggingLayer.get?_empty fun s => h (.logging s)

/-- **Single settings are all that a layer resolves from.** -/
theorem Layer.resolve_congr {a b : Layer} (h : ∀ s, a.get? s = b.get? s) : a.resolve = b.resolve := by
  rw [← a.resolve_complete, complete_ext h, b.resolve_complete]

end DeviceTrust.Settings
