import DeviceTrust.Proofs.KeySet.Ledger
import DeviceTrust.Proofs.KeySet.RateLimit

/-!
# What one action does to the loops

`Effect` says what an action does to the attempts. This module does the same for the loops: an action
adds one, marks or takes away a cancelled one, or lets one go on. A loop that goes on comes to rest for an
interval or waits for the rate limit, and does so only where no attempt could begin at that moment; otherwise it
begins one. Nothing but its cancellation removes a loop. The wake-up that may be handed to a loop after that leaves
everything about the loop as it is that does not concern wake-ups.
-/

namespace DeviceTrust.KeySet

variable {config : CacheConfig} {t t' : Timeline} {l k : Loop} {id : Nat} {action : Action} {actions : List Action}

theorem Cache.finish_wake (c : Cache) (wall : Moment) (result : Except Error KeySet) :
    (c.finish wall result).wake = c.wake := by
  cases result <;> rfl

/-- A loop that goes on waiting for what it waits for, though it may have been handed a wake-up or cancelled. -/
structure Loop.Still (k l : Loop) : Prop where
  id_eq : l.id = k.id
  reports_eq : l.reports = k.reports
  spawned_eq : l.spawned = k.spawned
  phase_eq : l.phase = k.phase ∨ ∃ d, k.phase = .idle d ∧ l.phase = .woken d

theorem Loop.Still.refl (l : Loop) : l.Still l := ⟨rfl, rfl, rfl, .inl rfl⟩

theorem Loop.still_rouse (l : Loop) : l.Still l.rouse := by
  cases hphase : l.phase with
  | idle d => exact ⟨l.rouse_id, by rw [rouse, hphase], by rw [rouse, hphase], .inr ⟨d, hphase, by rw [rouse, hphase]⟩⟩
  | woken _ | held _ | fetching _ =>
    rw [rouse, hphase]
    exact .refl l

theorem Loop.canAwaken_iff : l.canAwaken = true ↔ l.isWoken = true ∧ l.cancelled = false := by
  rw [canAwaken, Bool.and_eq_true, Bool.not_eq_true']

theorem Loop.rouse_cancelled (l : Loop) : l.rouse.cancelled = l.cancelled := by
  unfold rouse
  cases l.phase <;> rfl

theorem Loop.Still.flight?_eq (h : l.Still k) : k.flight? = l.flight? := by
  rcases h.phase_eq with hphase | ⟨d, hidle, hwoken⟩
  · simp only [flight?, hphase, h.id_eq, h.reports_eq]
  · simp only [flight?, hidle, hwoken]

namespace Timeline

theorem deadline_of_still (h : l.Still k) : t.deadline k = t.deadline l := by
  rcases h.phase_eq with hphase | ⟨d, hidle, hwoken⟩
  · simp only [deadline, hphase]
  · simp only [deadline, hidle, hwoken]

theorem mem_adjust {f : Loop → Loop} (h : k ∈ (t.adjust id f).loops) :
    ∃ l ∈ t.loops, k = l ∨ l.id = id ∧ k = f l := by
  obtain ⟨l, hl, rfl⟩ := List.mem_map.mp h
  refine ⟨l, hl, ?_⟩
  by_cases hid : l.id = id
  · exact .inr ⟨hid, if_pos hid⟩
  · exact .inl (if_neg hid)

theorem mem_adjust_of_mem (id : Nat) (f : Loop → Loop) (hl : l ∈ t.loops) :
    (if l.id = id then f l else l) ∈ (t.adjust id f).loops := List.mem_map.mpr ⟨l, hl, rfl⟩

theorem exists_of_mem_cancelled (hk : k ∈ (t.adjust id fun l => { l with cancelled := true }).loops) :
    ∃ l ∈ t.loops, l.Still k := by
  obtain ⟨l, hl, rfl | ⟨-, rfl⟩⟩ := mem_adjust hk
  · exact ⟨k, hl, .refl k⟩
  · exact ⟨l, hl, rfl, rfl, rfl, .inl rfl⟩

theorem exists_of_mem_hand (hk : k ∈ t.hand.loops) :
    ∃ l ∈ t.loops, l.Still k ∧ k.cancelled = l.cancelled := by
  rcases hand_cases t with heq | ⟨-, idle, -, -, heq⟩
  · rw [heq] at hk
    exact ⟨k, hk, .refl k, rfl⟩
  · rw [heq] at hk
    obtain ⟨l, hl, rfl | ⟨-, rfl⟩⟩ := mem_adjust hk
    · exact ⟨k, hl, .refl k, rfl⟩
    · exact ⟨l, hl, l.still_rouse, l.rouse_cancelled⟩

/-- A wake-up is handed only to a loop that waits for one. -/
theorem mem_hand (hl : l ∈ t.loops) (hidle : l.isIdle = false) : l ∈ t.hand.loops := by
  rcases hand_cases t with heq | ⟨-, k, -, -, heq⟩
  · rwa [heq]
  · have hsame : l.rouse = l := by
      unfold Loop.isIdle at hidle
      unfold Loop.rouse
      cases hphase : l.phase with
      | idle _ =>
        rw [hphase] at hidle
        cases hidle
      | woken _ | held _ | fetching _ => rfl
    have hmem := mem_adjust_of_mem k.id Loop.rouse hl
    rw [hsame, ite_self] at hmem
    rw [heq]
    exact hmem

theorem exists_mem_hand (hl : l ∈ t.loops) : ∃ k ∈ t.hand.loops, l.Still k ∧ k.cancelled = l.cancelled := by
  rcases hand_cases t with heq | ⟨-, idle, -, -, heq⟩
  · rw [heq]
    exact ⟨l, hl, .refl l, rfl⟩
  · rw [heq]
    refine ⟨_, mem_adjust_of_mem _ Loop.rouse hl, ?_⟩
    by_cases hid : l.id = idle.id
    · rw [if_pos hid]
      exact ⟨l.still_rouse, l.rouse_cancelled⟩
    · rw [if_neg hid]
      exact ⟨.refl l, rfl⟩

theorem conclude_frame (t : Timeline) (who : Actor) (reports : Bool) (a : Attempt) :
    (t.conclude who reports a).now = t.now ∧ (t.conclude who reports a).calls = t.calls ∧
      (t.conclude who reports a).loops = t.loops ∧ (t.conclude who reports a).cache.config = t.cache.config ∧
      (t.conclude who reports a).cache.wake = t.cache.wake := by
  rw [conclude_eq]
  exact ⟨rfl, rfl, rfl, Cache.finish_config _ _ _, Cache.finish_wake _ _ _⟩

inductive Enters (t t' : Timeline) (reply : Reply) : Phase → Prop where
  | idle (hrefused : t.cache.admission t.now ≠ .admitted) :
    Enters t t' reply (.idle (t.now + t.cache.config.refreshInterval))
  | held (hlimited : t.cache.remaining t.now ≠ 0) : Enters t t' reply (.held (t.now + t.cache.remaining t.now))
  | fetching (hstart : t'.starts = t.now :: t.starts) : Enters t t' reply (.fetching ⟨t.now, reply⟩)

/-- A loop goes on to a phase, and a wake-up is stored after that or not. -/
structure GoesOn (t : Timeline) (l : Loop) (reply : Reply) (wake : Bool) (phase : Phase) (t' : Timeline) : Prop where
  now_eq : t'.now = t.now
  config_eq : t'.cache.config = t.cache.config
  wake_eq : t'.cache.wake = wake
  calls_eq : t'.calls = t.calls
  loops_eq : t'.loops = (t.enter l phase).loops
  enters : t.Enters t' reply phase

theorem goesOn_cycle (t : Timeline) (l : Loop) (reply : Reply) (wake : Bool) :
    ∃ phase, t.GoesOn l reply wake phase (({ t with cache := { t.cache with wake } } : Timeline).cycle l reply) := by
  cases h : t.cache.admission t.now with
  | admitted =>
    rw [cycle, request_admitted (t := { t with cache := { t.cache with wake } }) h]
    exact ⟨_, rfl, rfl, rfl, rfl, rfl, .fetching rfl⟩
  | inFlight =>
    have hrefused : t.cache.admission t.now ≠ .admitted := fun hadmitted => by cases h.symm.trans hadmitted
    rw [cycle, request_inFlight (t := { t with cache := { t.cache with wake } }) h]
    exact ⟨_, rfl, rfl, rfl, rfl, rfl, .idle hrefused⟩
  | rateLimited d =>
    have hrefused : t.cache.admission t.now ≠ .admitted := fun hadmitted => by cases h.symm.trans hadmitted
    rw [cycle, request_rateLimited (t := { t with cache := { t.cache with wake } }) h]
    exact ⟨_, rfl, rfl, rfl, rfl, rfl, .idle hrefused⟩

theorem goesOn_takeWake (t : Timeline) (l : Loop) (reply : Reply) :
    ∃ phase, t.GoesOn l reply t.cache.wake phase (t.takeWake l reply) := by
  rw [takeWake]
  by_cases hover : t.cache.remaining t.now = 0
  · rw [if_pos hover]
    exact goesOn_cycle t l reply t.cache.wake
  · rw [if_neg hover]
    exact ⟨_, rfl, rfl, rfl, rfl, rfl, .held hover⟩

/-- A loop rests after its own attempt. That is over only now, so nobody else could have begun one. -/
theorem goesOn_conclude (hs : t.Single) (hl : l ∈ t.loops) {a : Attempt} (hphase : l.phase = .fetching a)
    (reply : Reply) :
    ∃ phase, t.GoesOn l reply t.cache.wake phase ((t.conclude (.loop l.id) l.reports a).rest l) := by
  have hrefused : t.cache.admission t.now ≠ .admitted := by
    intro hadmitted
    obtain ⟨hnone, -⟩ := hs.of_unlocked (Cache.admission_eq_admitted.mp hadmitted).1
    have hflight : (⟨.loop l.id, l.reports, a⟩ : Flight) ∈ t.flights :=
      List.mem_append_right _ (List.mem_filterMap.mpr ⟨l, hl, Loop.flight?_of_fetching hphase⟩)
    rw [hnone] at hflight
    cases hflight
  obtain ⟨hnow, hcalls, hloops, hconfig, hwake⟩ := conclude_frame t (.loop l.id) l.reports a
  refine ⟨.idle (t.now + t.cache.config.refreshInterval), hnow, hconfig, hwake, hcalls, ?_, .idle hrefused⟩
  simp only [rest, enter, hnow, hloops, hconfig]

/-- What becomes of the loops in an action, before a stored wake-up is handed to one. -/
inductive Turn (t : Timeline) (action : Action) (t' : Timeline) : Prop where
  | kept (hnow : t'.now = t.now) (hloops : t'.loops = t.loops)
  | passed (d : Duration) (haction : action = .pass d) (h : t' = { t with now := t.now + d })
  | spawned (l : Loop) (haction : action = .spawn l.id l.reports) (hnow : t'.now = t.now) (hspawned : l.spawned = t.now)
      (hlive : l.cancelled = false) (hphase : l.phase = .idle (t.now + t.cache.config.refreshInterval))
      (hloops : t'.loops = t.loops ++ [l])
  | cancelled (id : Nat) (haction : action = .cancel id) (hnow : t'.now = t.now)
      (hloops : t'.loops = (t.adjust id fun l => { l with cancelled := true }).loops)
  | dropped (l : Loop) (haction : action = .drop l.id) (hl : l ∈ t.loops) (hcancelled : l.cancelled = true)
      (hnow : t'.now = t.now) (hloops : t'.loops = t.loops.filter (·.id != l.id))
  | wentOn (l : Loop) (hl : l ∈ t.loops) (hlive : l.cancelled = false) (reply : Reply) (wake : Bool) (phase : Phase)
      (h : t.GoesOn l reply wake phase t')

theorem turn_of_move (hs : t.Single) (h : t.Move action t') : t.Turn action t' := by
  cases h with
  | refused | delayed | began | withdrawn | found | missed => exact .kept rfl rfl
  | completed =>
    rw [conclude_eq]
    exact .kept rfl rfl
  | @rested l reply a hl hlive hphase =>
    obtain ⟨phase, hgoes⟩ := goesOn_conclude hs (of_loop? hl).1 hphase reply
    exact .wentOn l (of_loop? hl).1 hlive reply _ phase hgoes
  | @cycled l reply hl hlive =>
    obtain ⟨phase, hgoes⟩ := goesOn_cycle t l reply (t.cache.wake || l.isWoken)
    exact .wentOn l (of_loop? hl).1 hlive reply _ phase hgoes
  | @awoken l reply hl hawaken =>
    obtain ⟨phase, hgoes⟩ := goesOn_takeWake t l reply
    exact .wentOn l (of_loop? hl).1 (Loop.canAwaken_iff.mp hawaken).2 reply _ phase hgoes
  | spawned => exact .spawned _ rfl rfl rfl rfl rfl rfl
  | cancelled => exact .cancelled _ rfl rfl rfl
  | abandoned hl hcancelled | dropped hl hcancelled => exact .dropped _ rfl (of_loop? hl).1 hcancelled rfl rfl
  | passed => exact .passed _ rfl rfl

theorem mem_enter {phase : Phase} :
    k ∈ (t.enter l phase).loops ↔ (k ∈ t.loops ∧ k.id ≠ l.id) ∨ k = { l with phase } := by
  show k ∈ t.loops.filter (·.id != l.id) ++ [{ l with phase }] ↔ _
  rw [List.mem_append, List.mem_filter, List.mem_singleton, bne_iff_ne]

theorem Turn.cases_of_mem (h : t.Turn action t') (hk : k ∈ t'.loops) :
    (∃ l ∈ t.loops, l.Still k) ∨
      (action = .spawn k.id k.reports ∧ k.spawned = t.now ∧
        k.phase = .idle (t.now + t.cache.config.refreshInterval)) ∨
      ∃ l ∈ t.loops, ∃ reply wake phase, t.GoesOn l reply wake phase t' ∧ k = { l with phase } := by
  cases h with
  | kept _ hloops => exact .inl ⟨k, hloops ▸ hk, .refl k⟩
  | passed d _ h =>
    rw [h] at hk
    exact .inl ⟨k, hk, .refl k⟩
  | spawned l haction _ hspawned _ hphase hloops =>
    rw [hloops] at hk
    rcases List.mem_append.mp hk with hk | hk
    · exact .inl ⟨k, hk, .refl k⟩
    · obtain rfl := List.mem_singleton.mp hk
      exact .inr (.inl ⟨haction, hspawned, hphase⟩)
  | cancelled id _ _ hloops =>
    exact .inl (exists_of_mem_cancelled (hloops ▸ hk))
  | dropped l _ _ _ _ hloops => exact .inl ⟨k, List.mem_of_mem_filter (hloops ▸ hk), .refl k⟩
  | wentOn l hl _ reply wake phase h =>
    rcases mem_enter.mp (h.loops_eq ▸ hk) with ⟨hk, -⟩ | rfl
    · exact .inl ⟨k, hk, .refl k⟩
    · exact .inr (.inr ⟨l, hl, reply, wake, phase, h, rfl⟩)

theorem Turn.now_eq_or_passed (h : t.Turn action t') :
    t'.now = t.now ∨ ∃ d, action = .pass d ∧ t' = { t with now := t.now + d } := by
  cases h with
  | passed d haction h => exact .inr ⟨d, haction, h⟩
  | kept hnow _ | spawned _ _ hnow _ _ _ _ | cancelled _ _ hnow _ | dropped _ _ _ _ hnow _ => exact .inl hnow
  | wentOn _ _ _ _ _ _ h => exact .inl h.now_eq

theorem Distinct.id_ne (hd : t.Distinct) (hl : l ∈ t.loops) (hk : k ∈ t.loops) (hne : l ≠ k) : l.id ≠ k.id :=
  fun hid => hne (List.inj_on_of_nodup_map hd.loops hl hk hid)

/-- **Nothing but its cancellation removes a loop**: not an error, not a refusal, and no other loop. -/
theorem Turn.keeps (h : t.Turn action t') (hd : t.Distinct) (hl : l ∈ t.loops) (hlive : l.cancelled = false)
    (hcancel : action ≠ .cancel l.id) :
    ∃ k ∈ t'.loops, k.id = l.id ∧ k.spawned = l.spawned ∧ k.cancelled = false := by
  cases h with
  | kept _ hloops => exact ⟨l, hloops ▸ hl, rfl, rfl, hlive⟩
  | passed d _ h => exact ⟨l, h ▸ hl, rfl, rfl, hlive⟩
  | spawned k _ _ _ _ _ hloops => exact ⟨l, hloops ▸ List.mem_append_left _ hl, rfl, rfl, hlive⟩
  | cancelled id haction _ hloops =>
    have hid : l.id ≠ id := by
      rintro rfl
      exact hcancel haction
    have hmem := mem_adjust_of_mem id (fun l => { l with cancelled := true }) hl
    rw [if_neg hid] at hmem
    exact ⟨l, hloops ▸ hmem, rfl, rfl, hlive⟩
  | dropped k _ hk hcancelled _ hloops =>
    have hid : l.id ≠ k.id := hd.id_ne hl hk fun heq => by
      rw [← heq, hlive] at hcancelled
      cases hcancelled
    exact ⟨l, hloops ▸ List.mem_filter.mpr ⟨hl, bne_iff_ne.mpr hid⟩, rfl, rfl, hlive⟩
  | wentOn k hk _ reply wake phase h =>
    by_cases hid : l.id = k.id
    · obtain rfl := List.inj_on_of_nodup_map hd.loops hl hk hid
      exact ⟨{ l with phase }, h.loops_eq ▸ mem_enter.mpr (.inr rfl), rfl, rfl, hlive⟩
    · exact ⟨l, h.loops_eq ▸ mem_enter.mpr (.inl ⟨hl, hid⟩), rfl, rfl, hlive⟩

end Timeline

theorem Reachable.turn (ht : Reachable config t) (h : t.Move action t') : t.Turn action t' :=
  Timeline.turn_of_move ht.single h

theorem ReachableBy.keeps {allowed : Timeline → Action → Bool} (ht : ReachableBy allowed config t) (hl : l ∈ t.loops)
    (hlive : l.cancelled = false) (h : t.runBy? allowed actions = some t') (hcancel : .cancel l.id ∉ actions) :
    ∃ k ∈ t'.loops, k.id = l.id ∧ k.spawned = l.spawned ∧ k.cancelled = false := by
  induction actions generalizing t l with
  | nil =>
    cases h
    exact ⟨l, hl, rfl, rfl, hlive⟩
  | cons a as ih =>
    rw [Timeline.runBy?] at h
    split at h
    · rename_i hallowed
      obtain ⟨t₂, hstep, hrun⟩ := Option.bind_eq_some_iff.mp h
      rw [List.mem_cons, not_or] at hcancel
      have ht₂ := ht.step hallowed hstep
      obtain ⟨t₁, hmove, rfl⟩ := Timeline.move_of_step hstep
      have hturn := ht.reachable.turn hmove
      obtain ⟨l₁, hl₁, hid₁, hspawned₁, hlive₁⟩ :=
        hturn.keeps ht.reachable.distinct hl hlive (Ne.symm hcancel.1)
      obtain ⟨l₂, hl₂, hstill, hlive₂⟩ := Timeline.exists_mem_hand hl₁
      have hid₂ : l₂.id = l.id := hstill.id_eq.trans hid₁
      obtain ⟨k, hk, hid, hspawned, hlive⟩ := ih ht₂ hl₂ (hlive₂.trans hlive₁) hrun (hid₂ ▸ hcancel.2)
      exact ⟨k, hk, hid.trans hid₂, hspawned.trans (hstill.spawned_eq.trans hspawned₁), hlive⟩
    · cases h

end DeviceTrust.KeySet
