import DeviceTrust.Proofs.KeySet.Timing

/-!
# How stale a key set can become

As long as one refresh loop lives, attempts keep beginning. A loop that was told to wait, by the rate limit
or by an attempt under way, starts over with a whole refresh interval, so it may miss the moment at which the
next attempt could have begun; but it was told so at most `max minRefreshInterval fetchTimeout` after the
latest attempt began, and an interval later it asks again.
-/

namespace DeviceTrust.KeySet

variable {config : CacheConfig} {t t' : Timeline} {l k : Loop} {reply : Reply}

namespace Timeline

/-- When the latest attempt began, if any did. -/
def latestStart (t : Timeline) : Nat := t.starts.head?.getD 0

theorem latestStart_of_starts {now : Nat} (h : t.starts = now :: t'.starts) : t.latestStart = now := by
  rw [latestStart, h]
  rfl

theorem Spaced.now_add_remaining {interval : Nat} (hs : t.Spaced interval) (h : t.cache.remaining t.now ≠ 0) :
    t.now + t.cache.remaining t.now = t.latestStart + interval := by
  rw [hs.remaining_eq] at h ⊢
  rw [latestStart]
  cases hstart : t.starts.head? with
  | none =>
    rw [hstart] at h
    exact absurd rfl h
  | some s =>
    rw [hstart] at h
    have hleft : s + interval - t.now ≠ 0 := h
    show t.now + (s + interval - t.now) = s + interval
    omega

theorem Spaced.latestStart_le {interval : Nat} (hs : t.Spaced interval) : t.latestStart ≤ t.now := by
  rw [latestStart]
  cases hstart : t.starts.head? with
  | none => exact Nat.zero_le _
  | some s => exact hs.past s (List.mem_of_mem_head? hstart)

theorem Effect.latestStart_le {interval : Nat} (hs : t.Spaced interval) (h : t.Effect t') :
    t.latestStart ≤ t'.latestStart := by
  rcases h.flights_cases with ⟨-, hstarts⟩ | ⟨f, -, -, hstarts, -⟩
  · rw [latestStart, latestStart, hstarts]
  · rw [latestStart_of_starts hstarts]
    exact hs.latestStart_le

end Timeline

theorem Reachable.began_eq (ht : Reachable config t) : ∀ f ∈ t.flights, f.attempt.began = t.latestStart := by
  refine ht.invariant (P := fun t => ∀ f ∈ t.flights, f.attempt.began = t.latestStart) (fun _ => nofun) ?_
  intro t t' ht hbegan h f hf
  rcases h.flights_cases with ⟨hflights, hstarts⟩ | ⟨g, hperm, hnow, hstarts, hfree⟩
  · rw [Timeline.latestStart, hstarts]
    exact hbegan f (hflights f hf)
  · -- whoever begins an attempt is alone with it
    rw [(ht.single.of_unlocked hfree).1] at hperm
    obtain rfl := List.mem_singleton.mp (hperm.mem_iff.mp hf)
    rw [hnow, Timeline.latestStart_of_starts hstarts]

/-- How long after the latest attempt began a request can still be refused. -/
def CacheConfig.refusal (c : CacheConfig) : Nat := max c.minRefreshInterval c.fetchTimeout

/-- How old the latest attempt can become: an interval, and what a refusal may add to it. -/
def CacheConfig.staleness (c : CacheConfig) : Nat := c.refreshInterval + c.refusal

/-- A request is refused because of the latest attempt, and not for longer than that explains. -/
theorem ReachableBy.now_le_of_refused (ht : ReachableBy onTime config t) (h : t.cache.admission t.now ≠ .admitted) :
    t.now ≤ t.latestStart + config.refusal := by
  rw [CacheConfig.refusal]
  -- either an attempt is under way, which is cut off in time, or the rate limit since the latest one still lasts
  cases ht.reachable.single with
  | busy f _ _ hflights _ _ =>
    have hf : f ∈ t.flights := hflights ▸ List.mem_singleton_self f
    have hdue := ht.prompt.flights f hf
    have hcut := t.due_le f.attempt
    rw [ht.reachable.began_eq f hf, ht.reachable.config_eq] at hcut
    omega
  | idle hfree _ _ =>
    have hlimited : t.cache.remaining t.now ≠ 0 := fun hover => h (Cache.admission_eq_admitted.mpr ⟨hfree, hover⟩)
    have hleft := ht.reachable.spaced.now_add_remaining hlimited
    omega

namespace Timeline

/-- A loop moves again before the latest attempt, and its own beginning, are too long ago. -/
structure Fresh (bound : Nat) (t : Timeline) (l : Loop) : Prop where
  spawned_le : l.spawned ≤ t.now
  deadline_le : t.deadline l ≤ max l.spawned t.latestStart + bound

theorem Fresh.later {bound : Nat} (hf : t.Fresh bound l) (hconfig : t'.cache.config = t.cache.config)
    (hnow : t.now ≤ t'.now) (hstart : t.latestStart ≤ t'.latestStart) : t'.Fresh bound l := by
  have hdeadline := hf.deadline_le
  refine ⟨Nat.le_trans hf.spawned_le hnow, ?_⟩
  rw [deadline_eq_of_config hconfig]
  omega

/-- Whatever becomes of a loop that goes on waiting, it moves no later. -/
theorem Fresh.still {bound : Nat} (hf : t.Fresh bound l) (hstill : l.Still k) : t.Fresh bound k := by
  refine ⟨hstill.spawned_eq ▸ hf.spawned_le, ?_⟩
  rw [deadline_of_still hstill, hstill.spawned_eq]
  exact hf.deadline_le

end Timeline

theorem ReachableBy.fresh_of_goesOn {wake : Bool} {phase : Phase} (ht : ReachableBy onTime config t)
    (hspawned : l.spawned ≤ t.now) (heffect : t.Effect t') (h : t.GoesOn l reply wake phase t') :
    t'.Fresh config.staleness { l with phase } := by
  have hconfig := ht.reachable.config_eq
  have hstart := heffect.latestStart_le ht.reachable.spaced
  refine ⟨h.now_eq ▸ hspawned, ?_⟩
  rw [Timeline.deadline_eq_of_config h.config_eq, CacheConfig.staleness]
  cases h.enters with
  | idle hrefused =>
    have hnow := ht.now_le_of_refused hrefused
    show t.now + t.cache.config.refreshInterval ≤ _
    rw [hconfig]
    omega
  | held hlimited =>
    have hleft := ht.reachable.spaced.now_add_remaining hlimited
    show t.now + t.cache.remaining t.now ≤ _
    rw [hleft, CacheConfig.refusal]
    omega
  | fetching hbegan =>
    have hcut : t.due ⟨t.now, reply⟩ ≤ t.now + config.fetchTimeout := hconfig ▸ t.due_le ⟨t.now, reply⟩
    have hlatest := Timeline.latestStart_of_starts hbegan
    show t.due ⟨t.now, reply⟩ ≤ _
    rw [CacheConfig.refusal]
    omega

theorem ReachableBy.fresh (ht : ReachableBy onTime config t) : ∀ l ∈ t.loops, t.Fresh config.staleness l := by
  induction ht with
  | start origin h => exact nofun
  | @step t t' action ht hallowed h ih =>
    obtain ⟨t₁, hmove, rfl⟩ := Timeline.move_of_step h
    have heffect := Timeline.effect_of_move ht.reachable.distinct hmove
    have hconfig := heffect.config_eq
    have hnow := heffect.now_le
    have hfresh : ∀ l ∈ t₁.loops, t₁.Fresh config.staleness l := by
      intro l hl
      rcases (ht.reachable.turn hmove).cases_of_mem hl with
        ⟨k, hk, hstill⟩ | ⟨-, hspawned, hphase⟩ | ⟨k, hk, reply, wake, phase, h, rfl⟩
      · exact ((ih k hk).later hconfig hnow (heffect.latestStart_le ht.reachable.spaced)).still hstill
      · refine ⟨hspawned ▸ hnow, ?_⟩
        rw [Timeline.deadline_eq_of_config hconfig, Timeline.deadline, hphase, ht.reachable.config_eq, hspawned,
          CacheConfig.staleness]
        show t.now + config.refreshInterval ≤ _
        omega
      · exact ht.fresh_of_goesOn (ih k hk).spawned_le heffect h
    -- a wake-up that is handed to a loop does not delay it
    have hlatest : t₁.hand.latestStart = t₁.latestStart := by
      rw [Timeline.latestStart, Timeline.latestStart, Timeline.starts_hand]
    intro k hk
    obtain ⟨l, hl, hstill, -⟩ := Timeline.exists_of_mem_hand hk
    exact ((hfresh l hl).still hstill).later (Timeline.config_hand t₁) (Nat.le_of_eq (Timeline.hand_frame t₁).1.symm)
      (Nat.le_of_eq hlatest.symm)

/-- Only its deadline keeps a loop from moving, so that is a bound for the time there is. -/
theorem ReachableBy.now_le (ht : ReachableBy onTime config t) (hl : l ∈ t.loops) :
    t.now ≤ max l.spawned t.latestStart + config.staleness :=
  Nat.le_trans (ht.prompt.loops l hl) (ht.fresh l hl).deadline_le

/-- **Staleness is bounded.** Where nobody is late, the latest attempt of a cache with a loop is never older than an
interval and what a refusal may add to it, counted from the beginning of the loop if that came later. A loop that is
not cancelled is still there, whatever else happens, so the bound holds from its beginning on; and time does go on. -/
theorem bounded_staleness (ht : ReachableBy onTime config t) :
    (∀ l ∈ t.loops, t.now ≤ max l.spawned t.latestStart +
      (config.refreshInterval + max config.minRefreshInterval config.fetchTimeout)) ∧
    (∀ id reports t₁ actions t', t.step? (.spawn id reports) = some t₁ → t₁.runBy? onTime actions = some t' →
      .cancel id ∉ actions →
      (∃ l ∈ t'.loops, l.id = id ∧ l.spawned = t.now) ∧
      t'.now ≤ max t.now t'.latestStart +
        (config.refreshInterval + max config.minRefreshInterval config.fetchTimeout)) ∧
    ∀ d, ∃ actions t', t.runBy? onTime actions = some t' ∧ t'.now = t.now + d ∧
      ∀ a ∈ actions, a.isCancel = false := by
  refine ⟨fun l hl => ht.now_le hl, ?_, ht.exists_later⟩
  intro id reports t₁ actions t' hspawn hrun hcancel
  have ht₁ := ht.step rfl hspawn
  have hspawned : ∃ l ∈ t₁.loops, l.id = id ∧ l.spawned = t.now ∧ l.cancelled = false := by
    obtain ⟨t₂, hmove, rfl⟩ := Timeline.move_of_step hspawn
    have hnew : ∃ k ∈ t₂.loops, k.id = id ∧ k.spawned = t.now ∧ k.cancelled = false := by
      cases hmove with
      | spawned _ => exact ⟨_, List.mem_append_right _ (List.mem_singleton_self _), rfl, rfl, rfl⟩
    obtain ⟨k, hk, hid, hmoment, hlive⟩ := hnew
    obtain ⟨l, hl, hstill, hsame⟩ := Timeline.exists_mem_hand hk
    exact ⟨l, hl, hstill.id_eq.trans hid, hstill.spawned_eq.trans hmoment, hsame.trans hlive⟩
  obtain ⟨l₁, hl₁, rfl, hmoment, hlive⟩ := hspawned
  obtain ⟨l, hl, hid, hsame, -⟩ := ht₁.keeps hl₁ hlive hrun hcancel
  have hmoment := hsame.trans hmoment
  exact ⟨⟨l, hl, hid, hmoment⟩, hmoment ▸ (ht₁.run hrun).now_le hl⟩

/-- A source that is cut off before it answers. -/
def Reply.stalled : Reply := ⟨60000, .error (.network .connection)⟩

/-- The bound cannot be improved: a caller is refused, and the loop, whose own attempt is cut off in the end, waits
for a whole interval after that. -/
theorem bounded_staleness_attained :
    ∃ t l, ReachableBy onTime .hasty t ∧ l ∈ t.loops ∧
      t.now = max l.spawned t.latestStart + (CacheConfig.hasty.refreshInterval +
        max CacheConfig.hasty.minRefreshInterval CacheConfig.hasty.fetchTimeout) ∧
      ∃ actions t', t.runBy? onTime actions = some t' ∧ t'.now = t.now + 1 ∧ t.latestStart < t'.latestStart := by
  let l : Loop := ⟨0, true, 0, .idle 7000, false⟩
  let t : Timeline :=
    { now := 7000, origin := 0, cache := { config := .hasty, lastAttempt := some 1000 }, calls := [], loops := [l],
      history :=
        [(6000, .answered (.loop 0) (.failed (.timeout 5000))), (6000, .reported (.loop 0) (.timeout 5000)),
         (3000, .answered (.caller 1) .inFlight), (1000, .began (.loop 0) ⟨1000, .stalled⟩)] }
  have hrun : (Timeline.start 0 { config := .hasty }).runBy? onTime
      [.spawn 0 true, .pass 1000, .proceed 0 .stalled, .pass 2000, .refresh 1 false .stalled, .pass 3000,
       .proceed 0 .stalled, .pass 1000] = some t := by cbv
  have ht : ReachableBy onTime .hasty t := (ReachableBy.start 0 rfl).run hrun
  have hlength : CacheConfig.hasty.refreshInterval +
      max CacheConfig.hasty.minRefreshInterval CacheConfig.hasty.fetchTimeout = 6000 := by decide
  have hattained : t.now = max l.spawned t.latestStart + (CacheConfig.hasty.refreshInterval +
      max CacheConfig.hasty.minRefreshInterval CacheConfig.hasty.fetchTimeout) := by
    rw [hlength]
    rfl
  obtain ⟨-, -, hlater⟩ := bounded_staleness ht
  obtain ⟨actions, t', hrun', hnow, hcancels⟩ := hlater 1
  refine ⟨t, l, ht, List.mem_singleton_self l, hattained, actions, t', hrun', hnow, ?_⟩
  -- the loop is still there, and the bound would be exceeded if no attempt had begun
  have hkept : .cancel l.id ∉ actions := fun hmem => by cases hcancels _ hmem
  obtain ⟨l', hl', -, hspawned, -⟩ := ht.keeps (List.mem_singleton_self l) rfl hrun' hkept
  have hbound := (bounded_staleness (ht.run hrun')).1 l' hl'
  have hmoment : t'.now = 7001 := hnow
  have hfirst : l'.spawned = 0 := hspawned
  rw [hmoment, hfirst, hlength, Nat.zero_max] at hbound
  show 1000 < t'.latestStart
  omega

end DeviceTrust.KeySet
