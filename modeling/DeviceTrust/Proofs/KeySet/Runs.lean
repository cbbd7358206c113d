import DeviceTrust.Proofs.KeySet.Effects

/-!
# Runs of a cache

A run starts with a new cache, without callers or loops, and takes any actions that may happen,
in any order and at any moments. What is proved of a run is proved of the effects of one action
and carried along: `Reachable.invariant` for what holds of every timeline on the way, and
`Reachable.along` for what relates two of them.
-/

namespace DeviceTrust.KeySet

variable {config : CacheConfig} {t t' : Timeline} {actions : List Action} {allowed : Timeline → Action → Bool}

/-- A timeline that some run of a new cache leads to. -/
inductive Reachable (config : CacheConfig) : Timeline → Prop where
  | start (origin : Moment) {cache : Cache} (h : Cache.new config = .ok cache) :
    Reachable config (.start origin cache)
  | step {t t' : Timeline} {action : Action} (ht : Reachable config t) (h : t.step? action = some t') :
    Reachable config t'

theorem Reachable.run (ht : Reachable config t) (h : t.run? actions = some t') : Reachable config t' := by
  induction actions generalizing t with
  | nil =>
    cases h
    exact ht
  | cons a as ih =>
    obtain ⟨t₁, hstep, hrun⟩ := Option.bind_eq_some_iff.mp h
    exact ih (ht.step hstep) hrun

theorem Reachable.distinct (ht : Reachable config t) : t.Distinct := by
  induction ht with
  | start origin h => exact ⟨List.nodup_nil, List.nodup_nil⟩
  | step _ h ih => exact (Timeline.effect_of_step ih h).distinct

theorem Reachable.effect {action : Action} (ht : Reachable config t) (h : t.step? action = some t') : t.Effect t' :=
  Timeline.effect_of_step ht.distinct h

/-- What holds of a new cache and survives every effect holds of every reachable timeline. -/
theorem Reachable.invariant {P : Timeline → Prop} (ht : Reachable config t)
    (hstart : ∀ origin, P (.start origin { config }))
    (heffect : ∀ t t', Reachable config t → P t → t.Effect t' → P t') : P t := by
  induction ht with
  | start origin h =>
    unfold Cache.new at h
    split at h
    · cases h
      exact hstart origin
    · cases h
  | step ht h ih => exact heffect _ _ ht ih (ht.effect h)

/-- What every effect can only lead further along holds from one end of a run to the other. -/
theorem Reachable.along {R : Timeline → Timeline → Prop} (ht : Reachable config t) (h : t.run? actions = some t')
    (hrefl : ∀ t, R t t) (htrans : ∀ t₁ t₂ t₃, R t₁ t₂ → R t₂ t₃ → R t₁ t₃)
    (heffect : ∀ t t', Reachable config t → t.Effect t' → R t t') : R t t' := by
  induction actions generalizing t with
  | nil =>
    cases h
    exact hrefl _
  | cons a as ih =>
    obtain ⟨t₁, hstep, hrun⟩ := Option.bind_eq_some_iff.mp h
    exact htrans _ _ _ (heffect _ _ ht (ht.effect hstep)) (ih (ht.step hstep) hrun)

/-- A timeline that some run of a new cache leads to, each of whose actions was allowed when it happened. -/
inductive ReachableBy (allowed : Timeline → Action → Bool) (config : CacheConfig) : Timeline → Prop where
  | start (origin : Moment) {cache : Cache} (h : Cache.new config = .ok cache) :
    ReachableBy allowed config (.start origin cache)
  | step {t t' : Timeline} {action : Action} (ht : ReachableBy allowed config t) (hallowed : allowed t action = true)
    (h : t.step? action = some t') : ReachableBy allowed config t'

theorem ReachableBy.reachable (ht : ReachableBy allowed config t) : Reachable config t := by
  induction ht with
  | start origin h => exact .start origin h
  | step _ _ h ih => exact ih.step h

/-- The timeline after a sequence of actions, if each of them is allowed and may happen in its turn. -/
def Timeline.runBy? (allowed : Timeline → Action → Bool) (t : Timeline) : List Action → Option Timeline
  | [] => some t
  | a :: as => if allowed t a then (t.step? a).bind fun t => t.runBy? allowed as else none

theorem ReachableBy.run (ht : ReachableBy allowed config t) (h : t.runBy? allowed actions = some t') :
    ReachableBy allowed config t' := by
  induction actions generalizing t with
  | nil =>
    cases h
    exact ht
  | cons a as ih =>
    rw [Timeline.runBy?] at h
    split at h
    · rename_i hallowed
      obtain ⟨t₁, hstep, hrun⟩ := Option.bind_eq_some_iff.mp h
      exact ih (ht.step hallowed hstep) hrun
    · cases h

/-- An hour between refreshes, a minute between attempts, five seconds for one. -/
def CacheConfig.hourly : CacheConfig := ⟨"test://keys", .ofSeconds 3600, .ofSeconds 60, .ofSeconds 5⟩

theorem Reachable.start_hourly (origin : Moment) :
    Reachable .hourly (.start origin { config := .hourly }) :=
  .start origin rfl

theorem Timeline.Effect.config_eq (h : t.Effect t') : t'.cache.config = t.cache.config := by
  cases h with
  | ended f rest _ _ h =>
    obtain ⟨wake, hcache⟩ := h.cache_eq
    rw [hcache]
    exact Cache.finish_config _ _ _
  | passed _ h | unconcerned h | missed _ h | refused _ _ h | delayed _ _ _ h | began _ _ _ h | abandoned _ _ _ h =>
    obtain ⟨wake, hcache⟩ := h.cache_eq
    have hconfig := congrArg Cache.config hcache
    exact hconfig

theorem Reachable.config_eq (ht : Reachable config t) : t.cache.config = config :=
  ht.invariant (P := fun t => t.cache.config = config) (fun _ => rfl) fun _ _ _ hconfig h => h.config_eq.trans hconfig

end DeviceTrust.KeySet
