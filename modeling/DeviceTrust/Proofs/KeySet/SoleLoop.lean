import DeviceTrust.Proofs.KeySet.SingleFlight

/-!
# A loop that refreshes alone

A loop waits for the refresh interval, which is no shorter than the rate limit, or, after a wake-up, for
exactly what is left of the rate limit. So as long as nobody else asks for a refresh, the rate limit is over
whenever the loop asks, and the only attempt that could be in its way is its own, which it has waited for. It
is never refused, however late it is, however many wake-ups it takes and whatever becomes of its attempts.
-/

namespace DeviceTrust.KeySet

variable {config : CacheConfig} {t t₁ t' : Timeline} {l : Loop} {id : Nat} {who : Actor} {reply : Reply}
  {action : Action} {actions : List Action} {notes : List (Nat × Occurrence)}

/-- Who asked for a refresh, where an occurrence is a request: it began an attempt or was refused. -/
def Occurrence.asker? : Occurrence → Option Actor
  | .began who _ => some who
  | .answered who .inFlight => some who
  | .answered who (.rateLimited _) => some who
  | _ => none

namespace Timeline

/-- A caller may ask at any time. A loop asks while it waits for no attempt, at its deadline or, just woken, when
the rate limit is over. -/
inductive MayAsk (t : Timeline) : Actor → Prop where
  | caller (id : Nat) : MayAsk t (.caller id)
  | loop (l : Loop) (hl : l ∈ t.loops) (hfree : l.flight? = none)
      (hturn : t.deadline l ≤ t.now ∨ t.cache.remaining t.now = 0) : MayAsk t (.loop l.id)

/-- What is noted in an action. Of a request it is noted that it began an attempt, if one could begin. -/
structure Notes (t : Timeline) (notes : List (Nat × Occurrence)) (t' : Timeline) : Prop where
  history_eq : t'.history = notes ++ t.history
  asked : ∀ o ∈ notes, ∀ who, o.2.asker? = some who →
    t.MayAsk who ∧ (t.Admits → ∃ reply, o = (t.now, .began who ⟨t.now, reply⟩))

theorem notes_of_silent (hhistory : t'.history = notes ++ t.history) (hsilent : ∀ o ∈ notes, o.2.asker? = none) :
    t.Notes notes t' := by
  refine ⟨hhistory, fun o ho who hwho => ?_⟩
  rw [hsilent o ho] at hwho
  cases hwho

theorem notes_of_request (who : Actor) (reply : Reply) (hask : t.MayAsk who)
    (hhistory : t'.history = (t.request who reply).1.history) : ∃ notes, t.Notes notes t' := by
  -- one thing is noted of a request, and it names who asked
  have hone (o : Occurrence) (hnoted : t'.history = (t.now, o) :: t.history) (hwho : o.asker? = some who)
      (hadmits : t.Admits → ∃ reply, o = .began who ⟨t.now, reply⟩) : ∃ notes, t.Notes notes t' := by
    refine ⟨[(t.now, o)], hnoted, fun o' ho' who' hwho' => ?_⟩
    obtain rfl := List.mem_singleton.mp ho'
    obtain rfl := Option.some.inj (hwho.symm.trans hwho')
    refine ⟨hask, fun h => ?_⟩
    obtain ⟨reply, rfl⟩ := hadmits h
    exact ⟨reply, rfl⟩
  cases h : t.cache.admission t.now with
  | inFlight =>
    rw [request_inFlight h] at hhistory
    refine hone _ hhistory rfl fun hadmits => ?_
    rw [admits_iff, ← Cache.admission_eq_admitted, h] at hadmits
    cases hadmits
  | rateLimited d =>
    rw [request_rateLimited h] at hhistory
    refine hone _ hhistory rfl fun hadmits => ?_
    rw [admits_iff, ← Cache.admission_eq_admitted, h] at hadmits
    cases hadmits
  | admitted =>
    rw [request_admitted h] at hhistory
    exact hone _ hhistory rfl fun _ => ⟨reply, rfl⟩

/-- A loop's request is all that is noted of its turn, whatever became of the wake-up before it. -/
theorem cycle_history (t : Timeline) (l : Loop) (reply : Reply) (wake : Bool) :
    (({ t with cache := { t.cache with wake } } : Timeline).cycle l reply).history =
      (t.request (.loop l.id) reply).1.history := by
  cases h : t.cache.admission t.now with
  | inFlight => rw [cycle, request_inFlight (t := { t with cache := { t.cache with wake } }) h, request_inFlight h]; rfl
  | rateLimited d =>
    rw [cycle, request_rateLimited (t := { t with cache := { t.cache with wake } }) h, request_rateLimited h]; rfl
  | admitted =>
    rw [cycle, request_admitted (t := { t with cache := { t.cache with wake } }) h, request_admitted h]; rfl

/-- A loop that wakes up asks at once where the rate limit is over, and else says nothing yet. -/
theorem notes_takeWake (hl : l ∈ t.loops) (hawaken : l.canAwaken = true) :
    ∃ notes, t.Notes notes (t.takeWake l reply) := by
  unfold takeWake
  split
  · rename_i hover
    exact notes_of_request (.loop l.id) reply (.loop l hl (flight?_of_canAwaken hawaken) (.inr hover))
      (cycle_history t l reply t.cache.wake)
  · exact ⟨[], notes_of_silent rfl (List.forall_mem_nil _)⟩

theorem asker?_of_mem_endings {f : Flight} {limit : Duration} {o : Occurrence} (h : o ∈ f.endings limit) :
    o.asker? = none := by
  rcases mem_endings h with ⟨outcome, hends, rfl⟩ | ⟨e, rfl⟩
  · cases outcome with
    | refreshed _ | failed _ => rfl
    | inFlight | rateLimited _ => cases hends
  · rfl

theorem notes_conclude (t : Timeline) (who : Actor) (reports : Bool) (a : Attempt) :
    ∃ notes, (t.conclude who reports a).history = notes ++ t.history ∧ ∀ o ∈ notes, o.2.asker? = none := by
  rw [conclude_eq]
  refine ⟨_, rfl, fun o ho => ?_⟩
  obtain ⟨note, hnote, rfl⟩ := List.mem_map.mp ho
  exact asker?_of_mem_endings hnote

theorem notes_of_move (h : t.Move action t') : ∃ notes, t.Notes notes t' := by
  have hone (o : Nat × Occurrence) (hhistory : t'.history = o :: t.history) (hsilent : o.2.asker? = none) :
      ∃ notes, t.Notes notes t' := ⟨[o], notes_of_silent hhistory (List.forall_mem_singleton.mpr hsilent)⟩
  have hnone (hhistory : t'.history = t.history) : ∃ notes, t.Notes notes t' :=
    ⟨[], notes_of_silent hhistory (List.forall_mem_nil _)⟩
  cases h with
  | @refused id reports reply _ hbusy =>
    exact notes_of_request (.caller id) reply (.caller id) (by rw [request_inFlight hbusy])
  | @delayed id reports reply d _ hlimited =>
    exact notes_of_request (.caller id) reply (.caller id) (by rw [request_rateLimited hlimited])
  | @began id reports reply _ hadmitted =>
    exact notes_of_request (.caller id) reply (.caller id) (by rw [request_admitted hadmitted])
  | @completed c =>
    obtain ⟨notes, hhistory, hsilent⟩ :=
      notes_conclude { t with calls := t.calls.filter (·.id != c.id) } (.caller c.id) c.reports c.attempt
    exact ⟨notes, notes_of_silent hhistory hsilent⟩
  | withdrawn | abandoned => exact hone _ rfl rfl
  | @rested l reply a =>
    obtain ⟨notes, hhistory, hsilent⟩ := notes_conclude t (.loop l.id) l.reports a
    exact ⟨notes, notes_of_silent hhistory hsilent⟩
  | @cycled l reply hl _ hphase hdue =>
    have hask : t.MayAsk (.loop l.id) := .loop l (of_loop? hl).1 (Loop.flight?_eq_none_iff.mpr hphase) (.inl hdue)
    exact notes_of_request (.loop l.id) reply hask (cycle_history t l reply (t.cache.wake || l.isWoken))
  | awoken hl hawaken => exact notes_takeWake (of_loop? hl).1 hawaken
  | missed => exact hone _ rfl rfl
  | found | spawned | cancelled | dropped | passed => exact hnone rfl

/-- **Every request is noted, and nothing else names an asker.** -/
theorem notes_of_step (h : t.step? action = some t') : ∃ notes, t.Notes notes t' := by
  obtain ⟨t₁, hmove, rfl⟩ := move_of_step h
  obtain ⟨notes, hnotes⟩ := notes_of_move hmove
  exact ⟨notes, (hand_frame t₁).2.2.1.trans hnotes.history_eq, hnotes.asked⟩

/-- All attempts under way are those of one loop. While the loop waits for none, the rate limit is over at its
deadline. -/
structure Sole (id : Nat) (t : Timeline) : Prop where
  own : ∀ f ∈ t.flights, f.who = .loop id
  unlimited : ∀ l ∈ t.loops, l.id = id → l.flight? = none → t.cache.remaining (t.deadline l) = 0

/-- If the attempts are the loop's and it waits for none, there are none. -/
theorem flights_eq_nil_of_own (hd : t.Distinct) (hown : ∀ f ∈ t.flights, f.who = .loop id) (hl : l ∈ t.loops)
    (hid : l.id = id) (hfree : l.flight? = none) : t.flights = [] := by
  refine List.eq_nil_iff_forall_not_mem.mpr fun f hf => ?_
  obtain ⟨k, hk, hkid, hflight⟩ := exists_loop_of_flight hf (hown f hf)
  obtain rfl := List.inj_on_of_nodup_map hd.loops hk hl (hkid.trans hid.symm)
  rw [hfree] at hflight
  cases hflight

theorem Spaced.remaining_add {interval d : Nat} (hs : t.Spaced interval) (hd : interval ≤ d) :
    t.cache.remaining (t.now + d) = 0 := by
  rw [Cache.remaining, hs.remembered, hs.interval_eq]
  cases hstarts : t.starts.head? with
  | none => rfl
  | some s =>
    have hpast := hs.past s (List.mem_of_mem_head? hstarts)
    show interval - (t.now + d - s) = 0
    omega

theorem Sole.admits (hsole : t.Sole id) (hd : t.Distinct) (hs : t.Single) (hask : t.MayAsk (.loop id)) : t.Admits := by
  cases hask with
  | loop l hl hfree hturn =>
    have hnone := flights_eq_nil_of_own hd hsole.own hl rfl hfree
    have hlock : t.cache.locked = false := Bool.eq_false_iff.mpr fun h => hs.locked_iff.mp h hnone
    refine admits_iff.mpr ⟨hlock, ?_⟩
    rcases hturn with hdue | hover
    · exact Cache.remaining_eq_zero_of_le (hsole.unlimited l hl rfl hfree) hdue
    · exact hover

/-- An attempt that was not under way before was asked for in between. -/
theorem Effect.mem_flights (h : t.Effect t') (hhistory : t'.history = notes ++ t.history) {f : Flight}
    (hf : f ∈ t'.flights) : f ∈ t.flights ∨ ∃ o ∈ notes, o.2.asker? = some f.who := by
  cases h with
  | passed _ h | unconcerned h | missed _ h | refused _ _ h | delayed _ _ _ h =>
    exact .inl (h.flights_perm.mem_iff.mp hf)
  | ended g rest hflights _ h | abandoned g rest hflights h =>
    exact .inl (hflights.mem_iff.mpr (List.mem_cons_of_mem _ (h.flights_perm.mem_iff.mp hf)))
  | began g _ _ h =>
    rcases List.mem_cons.mp (h.flights_perm.mem_iff.mp hf) with rfl | hf
    · have hnotes : notes = [(t.now, .began f.who f.attempt)] :=
        List.append_cancel_right (hhistory.symm.trans h.history_eq)
      exact .inr ⟨_, hnotes ▸ List.mem_singleton_self _, rfl⟩
    · exact .inl hf

theorem Sole.move {interval : Nat} (hsole : t.Sole id) (hs : t.Spaced interval)
    (hinterval : interval ≤ t.cache.config.refreshInterval) (heffect : t.Effect t') (hturn : t.Turn action t')
    (hd' : t'.Distinct) (hhistory : t'.history = notes ++ t.history)
    (hothers : ∀ o ∈ notes, ∀ who, o.2.asker? = some who → who = .loop id) : t'.Sole id := by
  have hown : ∀ f ∈ t'.flights, f.who = .loop id := by
    intro f hf
    rcases heffect.mem_flights hhistory hf with hf | ⟨o, ho, hwho⟩
    · exact hsole.own f hf
    · exact hothers o ho _ hwho
  refine ⟨hown, fun l hl hid hfree => ?_⟩
  -- the loop waits for no attempt now, so none has begun in this action
  have hsame : t'.cache.remaining = t.cache.remaining := by
    rcases heffect.flights_cases with ⟨-, hstarts⟩ | ⟨f, hperm, -⟩
    · refine Cache.remaining_congr ?_ heffect.config_eq
      rw [(hs.effect heffect).remembered, hs.remembered, hstarts]
    · rw [flights_eq_nil_of_own hd' hown hl hid hfree] at hperm
      cases List.nil_perm.mp hperm
  rw [hsame, deadline_eq_of_config heffect.config_eq]
  rcases hturn.cases_of_mem hl with ⟨k, hk, hstill⟩ | ⟨-, -, hphase⟩ | ⟨k, -, reply, wake, phase, h, rfl⟩
  · rw [deadline_of_still hstill]
    exact hsole.unlimited k hk (hstill.id_eq.symm.trans hid) (hstill.flight?_eq ▸ hfree)
  · rw [deadline, hphase]
    exact hs.remaining_add hinterval
  · cases h.enters with
    | idle _ => exact hs.remaining_add hinterval
    | held _ => exact hs.remaining_after
    | fetching _ => cases hfree

theorem Sole.hand (hsole : t.Sole id) : t.hand.Sole id := by
  obtain ⟨-, -, -, hflights, -⟩ := hand_frame t
  refine ⟨hflights ▸ hsole.own, fun k hk hid hfree => ?_⟩
  obtain ⟨l, hl, hstill, -⟩ := exists_of_mem_hand hk
  rw [remaining_hand, deadline_eq_of_config (config_hand t), deadline_of_still hstill]
  exact hsole.unlimited l hl (hstill.id_eq.symm.trans hid) (hstill.flight?_eq ▸ hfree)

/-- A loop that takes its turn when attempts are admitted begins one. -/
theorem GoesOn.starts_eq {wake : Bool} {phase : Phase} (h : t.GoesOn l reply wake phase t') (hadmits : t.Admits) :
    t'.starts = t.now :: t.starts := by
  cases h.enters with
  | idle hrefused => exact absurd (Cache.admission_eq_admitted.mpr (admits_iff.mp hadmits)) hrefused
  | held hlimited => exact absurd (admits_iff.mp hadmits).2 hlimited
  | fetching hstart => exact hstart

end Timeline

theorem CacheConfig.minRefreshInterval_le (h : config.fault? = none) :
    config.minRefreshInterval ≤ config.refreshInterval := by
  unfold fault? at h
  split at h
  · cases h
  · split at h
    · cases h
    · split at h
      · cases h
      · split at h
        · cases h
        · rename_i hcrossed
          exact Nat.not_lt.mp hcrossed

/-- The rate limit fits into the refresh interval wherever there is a cache. -/
theorem Reachable.minRefreshInterval_le (ht : Reachable config t) :
    config.minRefreshInterval ≤ t.cache.config.refreshInterval := by
  rw [ht.config_eq]
  exact CacheConfig.minRefreshInterval_le ht.fault?_eq_none

/-- A loop that is started while no attempt is under way is alone at first. -/
theorem Reachable.sole_of_spawn (ht : Reachable config t) (hfinished : t.flights = []) {reports : Bool}
    (h : t.step? (.spawn id reports) = some t₁) : t₁.Sole id ∧ t₁.history = t.history := by
  obtain ⟨t₂, hmove, rfl⟩ := Timeline.move_of_step h
  have hhistory := (Timeline.hand_frame t₂).2.2.1
  cases hmove with
  | spawned hnew =>
    refine ⟨Timeline.Sole.hand ⟨fun f hf => ?_, fun l hl hid _ => ?_⟩, hhistory⟩
    · rw [Timeline.flights, List.filterMap_append, List.filterMap_cons_none rfl, List.filterMap_nil,
        List.append_nil] at hf
      have hf : f ∈ t.flights := hf
      rw [hfinished] at hf
      cases hf
    · rcases List.mem_append.mp hl with hl | hl
      · exact absurd hid (hnew l hl)
      · obtain rfl := List.mem_singleton.mp hl
        exact ht.spaced.remaining_add ht.minRefreshInterval_le

theorem Reachable.sole_step (ht : Reachable config t) (hsole : t.Sole id) (h : t.step? action = some t')
    (hnotes : t.Notes notes t') (hothers : ∀ o ∈ notes, ∀ who, o.2.asker? = some who → who = .loop id) :
    t'.Sole id := by
  obtain ⟨t₁, hmove, rfl⟩ := Timeline.move_of_step h
  have heffect := Timeline.effect_of_move ht.distinct hmove
  have hhistory : t₁.history = notes ++ t.history := (Timeline.hand_frame t₁).2.2.1.symm.trans hnotes.history_eq
  exact (hsole.move ht.spaced ht.minRefreshInterval_le heffect (ht.turn hmove) heffect.distinct hhistory hothers).hand

/-- **As long as a loop is alone, its requests begin attempts.** -/
theorem Reachable.sole_run (ht : Reachable config t) (h : t.run? actions = some t') :
    ∃ notes, t'.history = notes ++ t.history ∧
      (t.Sole id → (∀ o ∈ notes, ∀ who, o.2.asker? = some who → who = .loop id) →
        t'.Sole id ∧
        ∀ o ∈ notes, ∀ who, o.2.asker? = some who → ∃ reply, o.2 = .began who ⟨o.1, reply⟩) := by
  induction actions generalizing t with
  | nil =>
    cases h
    exact ⟨[], rfl, fun hsole _ => ⟨hsole, List.forall_mem_nil _⟩⟩
  | cons a as ih =>
    obtain ⟨t₁, hstep, hrun⟩ := Option.bind_eq_some_iff.mp h
    have ht₁ := ht.step hstep
    obtain ⟨first, hfirst⟩ := Timeline.notes_of_step hstep
    obtain ⟨later, hlater, hkeep⟩ := ih ht₁ hrun
    refine ⟨later ++ first, by rw [hlater, hfirst.history_eq, List.append_assoc], fun hsole hothers => ?_⟩
    obtain ⟨hothers, hothers₁⟩ := List.forall_mem_append.mp hothers
    have hsole₁ : t₁.Sole id := ht.sole_step hsole hstep hfirst hothers₁
    obtain ⟨hsole', hbegan⟩ := hkeep hsole₁ hothers
    refine ⟨hsole', List.forall_mem_append.mpr ⟨hbegan, fun o ho who hwho => ?_⟩⟩
    obtain ⟨hask, hadmitted⟩ := hfirst.asked o ho who hwho
    obtain rfl := hothers₁ o ho who hwho
    obtain ⟨reply, rfl⟩ := hadmitted (hsole.admits ht.distinct ht.single hask)
    exact ⟨reply, rfl⟩

/-- **A sole refresh loop wastes no cycle.** A loop is started when earlier attempts are over. From then on, for as
long as nobody else asks for a refresh, every request that is made begins an attempt, and the next one will: when
the loop's deadline has come, be it that of the interval or of the rate limit after a wake-up, and when it wakes up
with the rate limit over. -/
theorem sole_loop_always_begins (ht : Reachable config t) (hfinished : t.flights = []) {reports : Bool}
    (hspawn : t.step? (.spawn id reports) = some t₁) (hrun : t₁.run? actions = some t') :
    ∃ notes, t'.history = notes ++ t.history ∧
      ((∀ o ∈ notes, ∀ who, o.2.asker? = some who → who = .loop id) →
        (∀ o ∈ notes, ∀ who, o.2.asker? = some who → ∃ reply, o.2 = .began who ⟨o.1, reply⟩) ∧
        ∀ l ∈ t'.loops, l.id = id → l.cancelled = false → (∀ a, l.phase ≠ .fetching a) → ∀ reply,
          (t'.deadline l ≤ t'.now →
            ∃ t'', t'.step? (.proceed id reply) = some t'' ∧ t''.starts = t'.now :: t'.starts) ∧
          (l.isWoken = true → t'.cache.remaining t'.now = 0 →
            ∃ t'', t'.step? (.awaken id reply) = some t'' ∧ t''.starts = t'.now :: t'.starts)) := by
  obtain ⟨hsole, hsame⟩ := ht.sole_of_spawn hfinished hspawn
  have ht₁ := ht.step hspawn
  have ht' := ht₁.run hrun
  obtain ⟨notes, hhistory, hkeep⟩ := ht₁.sole_run hrun
  refine ⟨notes, hsame ▸ hhistory, fun hothers => ?_⟩
  obtain ⟨hsole', hbegan⟩ := hkeep hsole hothers
  refine ⟨hbegan, ?_⟩
  rintro l hl rfl hlive hphase reply
  have hfree : l.flight? = none := Loop.flight?_eq_none_iff.mpr hphase
  constructor
  · intro hdue
    obtain ⟨t₂, wake, phase, hact, hgoes, -⟩ := Timeline.exists_proceed ht'.distinct ht'.single hl hlive hdue reply
    refine ⟨_, Timeline.step_of_act hact, (Timeline.starts_hand t₂).trans ?_⟩
    exact hgoes.starts_eq (hsole'.admits ht'.distinct ht'.single (.loop l hl hfree (.inl hdue)))
  · intro hwoken hover
    have hawaken : l.canAwaken = true := Loop.canAwaken_iff.mpr ⟨hwoken, hlive⟩
    obtain ⟨t₂, phase, hact, hgoes⟩ := Timeline.exists_awaken ht'.distinct hl hawaken reply
    refine ⟨_, Timeline.step_of_act hact, (Timeline.starts_hand t₂).trans ?_⟩
    exact hgoes.starts_eq (hsole'.admits ht'.distinct ht'.single (.loop l hl hfree (.inr hover)))

/-- A caller's attempt has failed when the loop is started. The loop is woken and waits for the rate limit, is woken
again during its own attempt, ends that late and waits once more; five milliseconds late, it still begins another. -/
theorem sole_loop_always_begins_after_wake_ups :
    ∃ t t₁ t', Reachable .hourly t ∧ t.flights = [] ∧ t.step? (.spawn 0 true) = some t₁ ∧
      (∃ actions, t₁.run? actions = some t') ∧ t'.starts = [60000, 0] ∧ t'.now = 120005 ∧
      ∃ t'', t'.step? (.proceed 0 ⟨7, .ok .empty⟩) = some t'' ∧ t''.starts = [120005, 60000, 0] := by
  let failing : Reply := ⟨0, .error (.network .connection)⟩
  let slow : Reply := ⟨7, .ok .empty⟩
  let past : List (Nat × Occurrence) :=
    [(0, .answered (.caller 1) (.failed (.network .connection))), (0, .began (.caller 1) ⟨0, failing⟩)]
  let since : List (Nat × Occurrence) :=
    [(60009, .answered (.loop 0) (.failed (.document .empty))), (60009, .reported (.loop 0) (.document .empty)),
     (60002, .missed "k"), (60000, .began (.loop 0) ⟨60000, slow⟩), (7000, .missed "k")]
  let t : Timeline := ⟨0, 0, { config := .hourly, lastAttempt := some 0 }, [], [], past⟩
  let t₁ : Timeline := { t with loops := [⟨0, true, 0, .idle 3600000, false⟩] }
  let t' : Timeline :=
    { now := 120005, origin := 0, cache := { config := .hourly, lastAttempt := some 60000 }, calls := []
      loops := [⟨0, true, 0, .held 120000, false⟩], history := since ++ past }
  have hbefore : (Timeline.start 0 { config := .hourly }).run? [.refresh 1 false failing, .complete 1] = some t := by
    cbv
  have ht : Reachable .hourly t := (Reachable.start_hourly 0).run hbefore
  have hspawn : t.step? (.spawn 0 true) = some t₁ := by cbv
  have hrun : t₁.run?
      [.pass 7000, .resolve "k", .awaken 0 failing, .pass 53000, .proceed 0 slow, .pass 2, .resolve "k", .pass 7,
       .proceed 0 slow, .awaken 0 slow, .pass 59996] = some t' := by cbv
  obtain ⟨notes, hhistory, hsole⟩ := sole_loop_always_begins ht rfl hspawn hrun
  obtain rfl : since = notes := List.append_cancel_right hhistory
  have hothers : ∀ o ∈ since, ∀ who, o.2.asker? = some who → who = .loop 0 := by
    simp [since, Occurrence.asker?, eq_comm]
  obtain ⟨-, hnext⟩ := hsole hothers
  have hheld (a : Attempt) : Phase.held 120000 ≠ .fetching a := by
    intro h
    cases h
  obtain ⟨t'', hstep, hstarts⟩ := (hnext _ (List.mem_singleton_self _) rfl rfl hheld slow).1 (by decide)
  exact ⟨t, t₁, t', ht, rfl, hspawn, ⟨_, hrun⟩, rfl, rfl, t'', hstep, hstarts⟩

end DeviceTrust.KeySet
