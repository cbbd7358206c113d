import DeviceTrust.Proofs.Token.Acceptance

/-!
# Which fault of a token is reported

A token may have several faults at once. Each step of verification looks for one of them, and every
fault can be stated by itself, whatever the other steps find. What is reported is the fault of the
first step that finds one. The look-up of the key comes after all that can be known without a key,
and it is the only step that leaves a trace: a wake-up, where the store is a cache and the key is
not there.
-/

namespace DeviceTrust.Token

variable {a : Authority} {now : Int} {token kid : String} {cls : TokenClass} {binding : Option String} {e : Error}

/-- The steps of verification. -/
inductive Step where
  | readKid
  | allowKid
  | readClaims
  | capability
  | binding
  | findKey
  | signature
  deriving DecidableEq

/-- The steps for which no key is needed, in the order in which they are taken. -/
def Step.screening : List Step := [.readKid, .allowKid, .readClaims, .capability, .binding]

/-- The order in which all steps are taken. -/
def Step.order : List Step := screening ++ [.findKey, .signature]

/-- The fault that a step finds in a token, the other steps aside. There is none where the step has nothing to
look at, because the part of the token or the key that it is about cannot be had. -/
def Authority.fault? (a : Authority) (now : Int) (token : String) (cls : TokenClass) (binding : Option String) :
    Step → Option Error
  | .readKid =>
    match parseKid token with
    | .ok _ => none
    | .error e => some e
  | .allowKid =>
    match parseKid token with
    | .ok kid => if kid ∈ (a.policy cls).allowedKids then none else some (.kidNotAllowed kid)
    | .error _ => none
  | .readClaims =>
    match readClaims token with
    | .ok _ => none
    | .error e => some e
  | .capability =>
    match readClaims token with
    | .ok c =>
      let required := (a.policy cls).requiredCapabilities
      if required = [] ∨ ∃ name ∈ required, name ∈ c.capabilities then none else some .missingCapability
    | .error _ => none
  | .binding =>
    match readClaims token with
    | .ok c =>
      if ∀ b ∈ binding, c.mac ≠ "" ∧ Text.lowerAscii c.mac = Text.lowerAscii b then none else some .bindingMismatch
    | .error _ => none
  | .findKey =>
    match parseKid token with
    | .ok kid => if (a.trustStore.keys.get? kid).isSome then none else some (.unknownKid kid)
    | .error _ => none
  | .signature =>
    match parseKid token with
    | .ok kid =>
      match a.trustStore.keys.get? kid with
      | some key =>
        match a.rules.verify key now token with
        | .ok _ => none
        | .error r => some (.rejected r)
      | none => none
    | .error _ => none

/-- The errors that a step reports. -/
def Step.Reports : Step → Error → Prop
  | .readKid, e => (∃ m, e = .malformed m) ∨ e = .missingKid
  | .allowKid, e => ∃ kid, e = .kidNotAllowed kid
  | .readClaims, e => ∃ m, e = .malformed m
  | .capability, e => e = .missingCapability
  | .binding, e => e = .bindingMismatch
  | .findKey, e => ∃ kid, e = .unknownKid kid
  | .signature, e => ∃ r, e = .rejected r

theorem segments_error (h : segments? token = .error e) : e = .malformed .segments := by
  unfold segments? at h
  split at h
  · split at h
    · cases h
      rfl
    · cases h
  · cases h
    rfl

theorem readPart_error {α : Type} {part : Part} {read : Bytes → Option α} {segment : String}
    (h : readPart part read segment = .error e) : ∃ m, e = .malformed m := by
  unfold readPart at h
  simp only at h
  split at h
  · cases h
    exact ⟨_, rfl⟩
  · split at h
    · cases h
    · cases h
      exact ⟨_, rfl⟩

theorem parseKid_error (h : parseKid token = .error e) : Step.readKid.Reports e := by
  rcases bind_eq_error.mp h with h | ⟨⟨header, payload⟩, -, h⟩
  · exact .inl ⟨_, segments_error h⟩
  · rcases bind_eq_error.mp h with h | ⟨found, -, h⟩
    · exact .inl (readPart_error h)
    · split at h
      · split at h
        · cases h
          exact .inr rfl
        · cases h
      · cases h
        exact .inr rfl

theorem readClaims_error (h : readClaims token = .error e) : Step.readClaims.Reports e := by
  rcases bind_eq_error.mp h with h | ⟨⟨header, payload⟩, -, h⟩
  · exact ⟨_, segments_error h⟩
  · exact readPart_error h

theorem Authority.reports_of_fault? {step : Step} (h : a.fault? now token cls binding step = some e) :
    step.Reports e := by
  cases step with
  | readKid =>
    simp only [fault?] at h
    split at h
    · cases h
    · rename_i hkid
      cases h
      exact parseKid_error hkid
  | readClaims =>
    simp only [fault?] at h
    split at h
    · cases h
    · rename_i hclaims
      cases h
      exact readClaims_error hclaims
  | allowKid | findKey =>
    simp only [fault?] at h
    split at h
    · split at h
      · cases h
      · cases h
        exact ⟨_, rfl⟩
    · cases h
  | capability | binding =>
    simp only [fault?] at h
    split at h
    · split at h
      · cases h
      · cases h
        rfl
    · cases h
  | signature =>
    simp only [fault?] at h
    split at h
    · split at h
      · split at h
        · cases h
        · cases h
          exact ⟨_, rfl⟩
      · cases h
    · cases h

theorem Authority.screen_eq (a : Authority) (now : Int) (token : String) (cls : TokenClass)
    (binding : Option String) : a.screen token cls binding =
    match Step.screening.findSome? (a.fault? now token cls binding) with
    | some e => .error e
    | none => parseKid token := by
  cases hkid : parseKid token with
  | error e =>
    simp only [Step.screening, List.findSome?, fault?, hkid]
    rw [screen, hkid]
    rfl
  | ok kid =>
    by_cases hallowed : kid ∈ (a.policy cls).allowedKids
    · have hallows : (a.policy cls).allows kid = true := ClassPolicy.allows_iff.mpr hallowed
      cases hclaims : readClaims token with
      | error e =>
        simp only [Step.screening, List.findSome?, fault?, hkid, hallowed, hclaims, if_true]
        simp only [screen, hkid, ok_bind, hallows, hclaims]
        rfl
      | ok c =>
        simp only [Step.screening, List.findSome?, fault?, hkid, hallowed, hclaims, if_true]
        simp only [screen, hkid, ok_bind, hallows, hclaims]
        by_cases hcapability : (a.policy cls).requiredCapabilities = [] ∨
            ∃ name ∈ (a.policy cls).requiredCapabilities, name ∈ c.capabilities
        · rw [if_pos hcapability, ClassPolicy.capability_iff.mpr hcapability]
          by_cases hbound : ∀ b ∈ binding, c.mac ≠ "" ∧ Text.lowerAscii c.mac = Text.lowerAscii b
          · rw [if_pos hbound, Claims.bound_iff.mpr hbound]
            rfl
          · rw [if_neg hbound, Bool.of_not_eq_false (hbound ∘ Claims.bound_iff.mp)]
            rfl
        · rw [if_neg hcapability, Bool.of_not_eq_false (hcapability ∘ ClassPolicy.capability_iff.mp)]
          rfl
    · have hallows : (a.policy cls).allows kid = false :=
        Bool.eq_false_iff.mpr fun h => hallowed (ClassPolicy.allows_iff.mp h)
      simp only [Step.screening, List.findSome?, fault?, hkid, hallowed, if_false]
      simp only [screen, hkid, ok_bind, hallows]
      rfl

/-- The store after a look-up that found nothing: a cache has a wake-up stored. -/
def TrustStore.woken : TrustStore → TrustStore
  | .keyring ring => .keyring ring
  | .cache c => .cache { c with wake := true }

theorem TrustStore.resolve_eq (s : TrustStore) (kid : String) : s.resolve kid =
    match s.keys.get? kid with
    | some key => (some key, s)
    | none => (none, s.woken) := by
  cases s with
  | keyring ring => cases hkey : ring.keys.get? kid <;> simp [resolve, keys, woken, hkey]
  | cache c => cases hkey : c.keys.get? kid <;> simp [resolve, KeySet.Cache.resolve, keys, woken, hkey]

/-- What verification comes to, once screening has found nothing wrong: the key is looked up, and the verifier
has the last word. -/
theorem Authority.verify_of_screen (h : a.screen token cls binding = .ok kid) :
    a.verify now token cls binding =
      match a.trustStore.keys.get? kid with
      | some key => ((a.rules.verify key now token).mapError .rejected, a)
      | none => (.error (.unknownKid kid), { a with trustStore := a.trustStore.woken }) := by
  rw [verify, h]
  simp only [TrustStore.resolve_eq]
  cases a.trustStore.keys.get? kid <;> rfl

/-- **The error is the first fault.** -/
theorem Authority.verify_fst_eq_error_iff : (a.verify now token cls binding).1 = .error e ↔
    Step.order.findSome? (a.fault? now token cls binding) = some e := by
  have hscreen := a.screen_eq now token cls binding
  rw [Step.order, List.findSome?_append]
  cases hfirst : Step.screening.findSome? (a.fault? now token cls binding) with
  | some first =>
    rw [hfirst] at hscreen
    rw [verify, hscreen]
    simp
  | none =>
    rw [hfirst] at hscreen
    have hread : a.fault? now token cls binding .readKid = none :=
      List.findSome?_eq_none_iff.mp hfirst _ List.mem_cons_self
    cases hkid : parseKid token with
    | error cause => simp [fault?, hkid] at hread
    | ok kid =>
      rw [verify_of_screen (hscreen.trans hkid)]
      cases hkey : a.trustStore.keys.get? kid with
      | none => simp [List.findSome?, fault?, hkid, hkey]
      | some key =>
        cases hverify : a.rules.verify key now token <;>
          simp [List.findSome?, fault?, hkid, hkey, hverify, Except.mapError]

/-- If none of the first elements could have been the one that was found, none of them found anything. -/
theorem findSome?_silent {α β : Type} {f : α → Option β} {xs ys : List α} {b : β}
    (h : (xs ++ ys).findSome? f = some b) (hother : ∀ x ∈ xs, f x ≠ some b) : ∀ x ∈ xs, f x = none := by
  rw [List.findSome?_append] at h
  cases hfirst : xs.findSome? f with
  | none => exact List.findSome?_eq_none_iff.mp hfirst
  | some b' =>
    rw [hfirst] at h
    cases h
    obtain ⟨x, hx, hfx⟩ := List.exists_of_findSome?_eq_some hfirst
    exact absurd hfx (hother x hx)

theorem Authority.screened_of_unknownKid (h : (a.verify now token cls binding).1 = .error (.unknownKid kid)) :
    ∀ step ∈ Step.screening, a.fault? now token cls binding step = none := by
  refine findSome?_silent (verify_fst_eq_error_iff.mp h) fun step hstep hfault => ?_
  have hreports := reports_of_fault? hfault
  cases step <;> simp [Step.screening, Step.Reports] at hstep hreports

theorem Authority.screened_of_rejected {r : Rejection} (h : (a.verify now token cls binding).1 = .error (.rejected r)) :
    ∀ step ∈ Step.screening ++ [.findKey], a.fault? now token cls binding step = none := by
  have hfirst : ((Step.screening ++ [Step.findKey]) ++ [Step.signature]).findSome? (a.fault? now token cls binding) =
      some (.rejected r) := verify_fst_eq_error_iff.mp h
  refine findSome?_silent hfirst fun step hstep hfault => ?_
  have hreports := reports_of_fault? hfault
  cases step <;> simp [Step.screening, Step.Reports] at hstep hreports

/-- Verification leaves the authority as it was, but for the wake-up after a look-up that found nothing. -/
theorem Authority.verify_snd_eq (a : Authority) (now : Int) (token : String) (cls : TokenClass)
    (binding : Option String) :
    (∃ kid, (a.verify now token cls binding).1 = .error (.unknownKid kid) ∧
      (a.verify now token cls binding).2 = { a with trustStore := a.trustStore.woken }) ∨
    (∀ kid, (a.verify now token cls binding).1 ≠ .error (.unknownKid kid)) ∧
      (a.verify now token cls binding).2 = a := by
  cases hscreen : a.screen token cls binding with
  | error e =>
    refine .inr ⟨fun kid h => ?_, by rw [verify, hscreen]⟩
    -- an unknown key is not among the faults of screening
    have hnone := List.findSome?_eq_none_iff.mpr (screened_of_unknownKid h)
    have heq := a.screen_eq now token cls binding
    rw [hnone, hscreen] at heq
    rw [verify, hscreen] at h
    cases h
    obtain ⟨m, hm⟩ | hm := parseKid_error heq.symm <;> cases hm
  | ok kid =>
    rw [verify_of_screen hscreen]
    cases hkey : a.trustStore.keys.get? kid with
    | none => exact .inl ⟨kid, rfl, rfl⟩
    | some key =>
      refine .inr ⟨fun kid' h => ?_, rfl⟩
      cases hverify : a.rules.verify key now token <;> simp [hverify, Except.mapError] at h

/-- **Rejections come in a fixed order, and only a look-up that finds nothing leaves a trace.** The error is the
fault of the first step that finds one, each step reports errors of its own, and a token whose key is unknown or
whose signature is not accepted has passed all steps before. The authority stays as it was unless the key is
unknown; then a cache gets a wake-up and changes in nothing else. -/
theorem Authority.rejects_in_order (a : Authority) (now : Int) (token : String) (cls : TokenClass)
    (binding : Option String) :
    (∀ e, (a.verify now token cls binding).1 = .error e ↔
      Step.order.findSome? (a.fault? now token cls binding) = some e) ∧
    (∀ step e, a.fault? now token cls binding step = some e → step.Reports e) ∧
    (∀ kid, (a.verify now token cls binding).1 = .error (.unknownKid kid) →
      ∀ step ∈ Step.screening, a.fault? now token cls binding step = none) ∧
    (∀ r, (a.verify now token cls binding).1 = .error (.rejected r) →
      ∀ step ∈ Step.screening ++ [.findKey], a.fault? now token cls binding step = none) ∧
    ((∀ kid, (a.verify now token cls binding).1 ≠ .error (.unknownKid kid)) →
      (a.verify now token cls binding).2 = a) ∧
    ∀ c, a.trustStore = .cache c →
      (∀ kid, (a.verify now token cls binding).1 = .error (.unknownKid kid) →
        (a.verify now token cls binding).2 = { a with trustStore := .cache { c with wake := true } }) ∧
      (c.wake = false → ((a.verify now token cls binding).2 ≠ a ↔
        ∃ kid, (a.verify now token cls binding).1 = .error (.unknownKid kid))) := by
  have hsnd := a.verify_snd_eq now token cls binding
  refine ⟨fun e => verify_fst_eq_error_iff, fun step e => reports_of_fault?, fun kid => screened_of_unknownKid,
    fun r => screened_of_rejected, ?_, ?_⟩
  · intro hknown
    rcases hsnd with ⟨kid, hunknown, -⟩ | ⟨-, hsame⟩
    · exact absurd hunknown (hknown kid)
    · exact hsame
  · intro c hc
    rw [hc] at hsnd
    have hwoken : ∀ kid, (a.verify now token cls binding).1 = .error (.unknownKid kid) →
        (a.verify now token cls binding).2 = { a with trustStore := .cache { c with wake := true } } := by
      intro kid hunknown
      rcases hsnd with ⟨-, -, hwoken⟩ | ⟨hknown, -⟩
      · exact hwoken
      · exact absurd hunknown (hknown kid)
    refine ⟨hwoken, fun hwake => ⟨fun hchanged => ?_, ?_⟩⟩
    · rcases hsnd with ⟨kid, hunknown, -⟩ | ⟨-, hsame⟩
      · exact ⟨kid, hunknown⟩
      · exact absurd hsame hchanged
    · rintro ⟨kid, hunknown⟩ hsame
      rw [hwoken kid hunknown] at hsame
      have hstore := congrArg Authority.trustStore hsame
      rw [hc] at hstore
      cases c
      cases hstore
      cases hwake

/-- An authority that trusts a cache without keys, for one identifier. -/
def unstocked : Authority :=
  ⟨.cache { config := .ofSource "test://keys" }, .current none, none, ⟨["k"], []⟩, {}, {}⟩

/-- A token under another identifier, with an unreadable payload on top, leaves the cache alone. A token that is in
order up to its key does not. -/
theorem unstocked_rejects_in_order :
    (unstocked.verify 0 "eyJraWQiOiJ4In0.%." .api none).1 = .error (.kidNotAllowed "x") ∧
    (unstocked.verify 0 "eyJraWQiOiJ4In0.%." .api none).2 = unstocked ∧
    (unstocked.verify 0 "eyJraWQiOiJrIn0.e30." .api none).1 = .error (.unknownKid "k") ∧
    (unstocked.verify 0 "eyJraWQiOiJrIn0.e30." .api none).2 ≠ unstocked := by
  obtain ⟨hfirst, -, -, -, hsame, -⟩ := unstocked.rejects_in_order 0 "eyJraWQiOiJ4In0.%." .api none
  obtain ⟨hfirst', -, -, -, -, hcache⟩ := unstocked.rejects_in_order 0 "eyJraWQiOiJrIn0.e30." .api none
  have hother := (hfirst (.kidNotAllowed "x")).mpr (by decide +kernel)
  have hunknown := (hfirst' (.unknownKid "k")).mpr (by decide +kernel)
  refine ⟨hother, hsame fun kid h => ?_, hunknown, ((hcache _ rfl).2 rfl).mpr ⟨"k", hunknown⟩⟩
  rw [hother] at h
  cases h

end DeviceTrust.Token
