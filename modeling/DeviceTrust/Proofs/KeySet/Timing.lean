import DeviceTrust.Proofs.KeySet.WakeUps

/-!
# Runs in which nobody is late

Time passes up to the next deadline and no further, so no deadline is ever in the past. Time is not held up
either: whatever is due can be done at once, the dropping of cancelled loops included, and what a loop or a caller
then waits for is still to come, so after finitely many actions nothing is due and time can pass.
-/

namespace DeviceTrust.KeySet

variable {config : CacheConfig} {t t' : Timeline} {l : Loop} {reply : Reply} {action : Action} {actions : List Action}

def onTime (t : Timeline) : Action → Bool
  | .pass d => t.canPass d
  | _ => true

namespace Timeline

/-- An effect begins an attempt of now, or leaves none under way that was not before. -/
theorem Effect.flights_cases (h : t.Effect t') :
    ((∀ f ∈ t'.flights, f ∈ t.flights) ∧ t'.starts = t.starts) ∨
      ∃ f, t'.flights.Perm (f :: t.flights) ∧ f.attempt.began = t.now ∧ t'.starts = t.now :: t.starts ∧
        t.cache.locked = false := by
  cases h with
  | passed _ h | unconcerned h | missed _ h | refused _ _ h | delayed _ _ _ h =>
    refine .inl ⟨fun f hf => h.flights_perm.mem_iff.mp hf, ?_⟩
    rw [starts, h.history_eq]
    rfl
  | began f hadmitted hnow h =>
    refine .inr ⟨f, h.flights_perm, hnow, ?_, (Cache.admission_eq_admitted.mp hadmitted).1⟩
    rw [starts, h.history_eq]
    rfl
  | ended f rest hflights _ h =>
    refine .inl ⟨fun g hg => ?_, ?_⟩
    · exact hflights.mem_iff.mpr (List.mem_cons_of_mem _ (h.flights_perm.mem_iff.mp hg))
    · rw [starts, h.history_eq, List.filterMap_append, starts_endings]
      rfl
  | abandoned f rest hflights h =>
    refine .inl ⟨fun g hg => ?_, ?_⟩
    · exact hflights.mem_iff.mpr (List.mem_cons_of_mem _ (h.flights_perm.mem_iff.mp hg))
    · rw [starts, h.history_eq]
      rfl

structure Prompt (t : Timeline) : Prop where
  flights : ∀ f ∈ t.flights, t.now ≤ t.due f.attempt
  loops : ∀ l ∈ t.loops, t.now ≤ t.deadline l

theorem prompt_of_canPass {d : Duration} (h : t.canPass d = true) :
    ({ t with now := t.now + d } : Timeline).Prompt := by
  have hall : ∀ e ∈ t.deadlines, t.now + d ≤ e := by
    intro e he
    exact of_decide_eq_true (List.all_eq_true.mp (Bool.and_eq_true_iff.mp h).2 e he)
  constructor
  · exact fun f hf => hall _ (due_mem_deadlines hf)
  · exact fun l hl => hall _ (List.mem_append_right _ (List.mem_map_of_mem hl))

theorem due_eq_of_config (hconfig : t'.cache.config = t.cache.config) : t'.due = t.due := by
  funext a
  rw [due, due, hconfig]

theorem deadline_eq_of_config (hconfig : t'.cache.config = t.cache.config) : t'.deadline = t.deadline := by
  funext l
  simp only [deadline, due, hconfig]

theorem le_due_of_began {a : Attempt} (h : a.began = t.now) : t.now ≤ t.due a := h ▸ Nat.le_add_right _ _

theorem GoesOn.le_deadline {wake : Bool} {phase : Phase} (h : t.GoesOn l reply wake phase t') :
    t.now ≤ t.deadline { l with phase } := by
  cases h.enters with
  | idle _ => exact Nat.le_add_right _ _
  | held _ => exact Nat.le_add_right _ _
  | fetching _ => exact le_due_of_began rfl

theorem Prompt.step (hp : t.Prompt) (heffect : t.Effect t') (hturn : t.Turn action t')
    (hallowed : onTime t action = true) : t'.Prompt := by
  rcases hturn.now_eq_or_passed with hnow | ⟨d, rfl, rfl⟩
  · have hconfig := heffect.config_eq
    constructor
    · intro f hf
      rw [due_eq_of_config hconfig, hnow]
      rcases heffect.flights_cases with ⟨hflights, -⟩ | ⟨g, hperm, hbegan, -, -⟩
      · exact hp.flights f (hflights f hf)
      · rcases List.mem_cons.mp (hperm.mem_iff.mp hf) with rfl | hf
        · exact le_due_of_began hbegan
        · exact hp.flights f hf
    · intro l hl
      rw [deadline_eq_of_config hconfig, hnow]
      rcases hturn.cases_of_mem hl with ⟨k, hk, hstill⟩ | ⟨-, -, hphase⟩ | ⟨k, -, reply, wake, phase, h, rfl⟩
      · rw [deadline_of_still hstill]
        exact hp.loops k hk
      · rw [deadline, hphase]
        exact Nat.le_add_right _ _
      · exact h.le_deadline
  · exact prompt_of_canPass hallowed

theorem config_hand (t : Timeline) : t.hand.cache.config = t.cache.config := by
  obtain ⟨-, -, -, -, wake, hcache⟩ := hand_frame t
  rw [hcache]

theorem Prompt.hand (hp : t.Prompt) : t.hand.Prompt := by
  obtain ⟨hnow, -, -, hflights, -⟩ := hand_frame t
  constructor
  · rw [hnow, hflights, due_eq_of_config (config_hand t)]
    exact hp.flights
  · intro k hk
    obtain ⟨l, hl, hstill, -⟩ := exists_of_mem_hand hk
    rw [hnow, deadline_eq_of_config (config_hand t), deadline_of_still hstill]
    exact hp.loops l hl

end Timeline

theorem ReachableBy.prompt (ht : ReachableBy onTime config t) : t.Prompt := by
  induction ht with
  | start origin h => exact ⟨nofun, nofun⟩
  | step ht hallowed h ih =>
    obtain ⟨t₁, hmove, rfl⟩ := Timeline.move_of_step h
    have heffect := Timeline.effect_of_move ht.reachable.distinct hmove
    exact (ih.step heffect (ht.reachable.turn hmove) hallowed).hand

namespace Timeline

theorem loop?_of_mem (hd : t.Distinct) (hl : l ∈ t.loops) : t.loop? l.id = some l := by
  have hfound : (t.loop? l.id).isSome = true := List.find?_isSome.mpr ⟨l, hl, beq_iff_eq.mpr rfl⟩
  obtain ⟨k, hk⟩ := Option.isSome_iff_exists.mp hfound
  obtain ⟨hmem, hid⟩ := of_loop? hk
  rw [hk, List.inj_on_of_nodup_map hd.loops hmem hl hid]

theorem call?_of_mem {c : Call} (hd : t.Distinct) (hc : c ∈ t.calls) : t.call? c.id = some c := by
  have hfound : (t.call? c.id).isSome = true := List.find?_isSome.mpr ⟨c, hc, beq_iff_eq.mpr rfl⟩
  obtain ⟨k, hk⟩ := Option.isSome_iff_exists.mp hfound
  obtain ⟨hmem, hid⟩ := of_call? hk
  rw [hk, List.inj_on_of_nodup_map hd.calls hmem hc hid]

theorem toNat_or_le (b c : Bool) : (b || c).toNat ≤ b.toNat + c.toNat := by
  cases b with
  | true => exact Nat.le_add_right _ _
  | false => exact Nat.le_add_left _ _

theorem step_of_act (h : t.act? action = some t') : t.step? action = some t'.hand := by
  rw [step?, h]
  rfl

/-- What there is to do about a loop before time can pass: its deadline has come, it has been handed a wake-up, or
its task is to be dropped. -/
def burden (t : Timeline) (l : Loop) : Nat :=
  (decide (t.deadline l ≤ t.now)).toNat + l.isWoken.toNat + l.cancelled.toNat

/-- What there is to do before time can pass: calls that are over, and what there is to do about the loops. A wake-up
that is stored counts as well, for it may yet be handed to a loop. -/
def overdue (t : Timeline) : Nat :=
  t.calls.countP (fun c => t.due c.attempt ≤ t.now) + (t.loops.map t.burden).sum + t.cache.wake.toNat

theorem burden_eq (hnow : t'.now = t.now) (hconfig : t'.cache.config = t.cache.config) : t'.burden = t.burden := by
  funext l
  rw [burden, burden, hnow, deadline_eq_of_config hconfig]

/-- What a loop adds to it, where other loops or none come in its place. -/
theorem overdue_replace (loops : List Loop) (hd : t.Distinct) (hl : l ∈ t.loops) (hnow : t'.now = t.now)
    (hconfig : t'.cache.config = t.cache.config) (hcalls : t'.calls = t.calls)
    (hloops : t'.loops.Perm (loops ++ t.loops.filter (·.id != l.id))) :
    t'.overdue + t.burden l + t.cache.wake.toNat = t.overdue + (loops.map t.burden).sum + t'.cache.wake.toNat := by
  have hbefore := ((perm_cons_filter hd.loops hl).map t.burden).sum_eq
  have hafter := (hloops.map t.burden).sum_eq
  rw [List.map_cons, List.sum_cons] at hbefore
  rw [List.map_append, List.sum_append] at hafter
  rw [overdue, overdue, burden_eq hnow hconfig, due_eq_of_config hconfig, hnow, hcalls, hbefore, hafter]
  omega

theorem perm_adjust (hd : t.Distinct) (hl : l ∈ t.loops) (f : Loop → Loop) :
    (t.adjust l.id f).loops.Perm ([f l] ++ t.loops.filter (·.id != l.id)) := by
  have hperm := (perm_cons_filter hd.loops hl).map fun k => if k.id = l.id then f k else k
  have hothers : (t.loops.filter (·.id != l.id)).map (fun k => if k.id = l.id then f k else k) =
      t.loops.filter (·.id != l.id) := by
    have hsame : ∀ k ∈ t.loops.filter (·.id != l.id), (if k.id = l.id then f k else k) = id k :=
      fun k hk => if_neg (bne_iff_ne.mp (List.mem_filter.mp hk).2)
    rw [List.map_congr_left hsame, List.map_id]
  rw [List.map_cons, if_pos rfl, hothers] at hperm
  exact hperm

/-- To hand over a wake-up is not to do anything about it. -/
theorem overdue_hand (hd : t.Distinct) : t.hand.overdue = t.overdue := by
  rcases hand_cases t with heq | ⟨hwake, l, hl, hidle, heq⟩
  · rw [heq]
  · obtain ⟨hnow, hcalls, -⟩ := hand_frame t
    have hreplaced := overdue_replace [l.rouse] hd hl hnow (config_hand t) hcalls
      (by rw [heq]; exact perm_adjust hd hl Loop.rouse)
    have hwake' : t.hand.cache.wake = false := by rw [heq]
    have hburden : t.burden l.rouse = t.burden l + 1 := by
      unfold Loop.isIdle at hidle
      split at hidle
      · rename_i d hphase
        simp only [burden, Loop.rouse, hphase, deadline, Loop.isWoken, Bool.toNat_false, Bool.toNat_true]
        omega
      · cases hidle
    rw [hwake, hwake', List.map_singleton, List.sum_singleton, hburden, Bool.toNat_true, Bool.toNat_false] at hreplaced
    omega

theorem exists_complete {c : Call} (hd : t.Distinct) (hc : c ∈ t.calls) (hdue : t.due c.attempt ≤ t.now) :
    ∃ t', t.act? (.complete c.id) = some t' ∧ t'.now = t.now ∧ t'.overdue < t.overdue := by
  let others : Timeline := { t with calls := t.calls.filter (·.id != c.id) }
  have hact : t.act? (.complete c.id) = some (others.conclude (.caller c.id) c.reports c.attempt) := by
    simp only [act?, call?_of_mem hd hc, Nat.not_lt.mpr hdue, if_false, others]
  obtain ⟨hnow, hcalls, hloops, hconfig, hwake⟩ := conclude_frame others (.caller c.id) c.reports c.attempt
  refine ⟨_, hact, hnow, ?_⟩
  have hrest := (perm_cons_filter hd.calls hc).countP_eq fun c => t.due c.attempt ≤ t.now
  rw [List.countP_cons_of_pos (by simpa using hdue)] at hrest
  rw [overdue, overdue, hcalls, hloops, hwake, due_eq_of_config hconfig, burden_eq hnow hconfig, hnow, hrest]
  show _ + (t.loops.map t.burden).sum + t.cache.wake.toNat < _
  exact Nat.add_lt_add_right (Nat.add_lt_add_right (Nat.lt_succ_self _) _) _

/-- A cancelled loop is off the list once its task is dropped. -/
theorem exists_drop (hd : t.Distinct) (hl : l ∈ t.loops) (hcancelled : l.cancelled = true) :
    ∃ t', t.act? (.drop l.id) = some t' ∧ t'.now = t.now ∧ t'.overdue < t.overdue := by
  have hfound := loop?_of_mem hd hl
  have hless {t' : Timeline} (hnow : t'.now = t.now) (hconfig : t'.cache.config = t.cache.config)
      (hcalls : t'.calls = t.calls) (hloops : t'.loops = t.loops.filter (·.id != l.id))
      (hwake : t'.cache.wake = (t.giveBack l).cache.wake) : t'.overdue < t.overdue := by
    have hreplaced := overdue_replace [] hd hl hnow hconfig hcalls (hloops ▸ .refl _)
    have hback : (t.giveBack l).cache.wake.toNat ≤ t.cache.wake.toNat + l.isWoken.toNat := toNat_or_le _ _
    rw [burden, hcancelled, Bool.toNat_true, List.map_nil, List.sum_nil, hwake] at hreplaced
    omega
  let others : Timeline := { t.giveBack l with loops := t.loops.filter (·.id != l.id) }
  cases hphase : l.phase with
  | fetching a =>
    have hact : t.act? (.drop l.id) =
        some (({ others with cache := others.cache.abandon } : Timeline).note (.abandoned (.loop l.id))) := by
      simp only [act?, hfound, hcancelled, if_true, hphase, others]
    exact ⟨_, hact, rfl, hless rfl rfl rfl rfl rfl⟩
  | idle _ | woken _ | held _ =>
    have hact : t.act? (.drop l.id) = some others := by
      simp only [act?, hfound, hcancelled, if_true, hphase, others]
    exact ⟨_, hact, rfl, hless rfl rfl rfl rfl rfl⟩

/-- A loop that goes on is not due again before time has passed, if its attempt takes any time. -/
theorem GoesOn.now_lt {wake : Bool} {phase : Phase} (h : t.GoesOn l reply wake phase t')
    (hinterval : t.cache.config.refreshInterval ≠ 0) (htimeout : t.cache.config.fetchTimeout ≠ 0)
    (hreply : reply.delay ≠ 0) : t.now < t.deadline { l with phase } := by
  cases h.enters with
  | idle _ => exact Nat.lt_add_of_pos_right (Nat.pos_of_ne_zero hinterval)
  | held hlimited => exact Nat.lt_add_of_pos_right (Nat.pos_of_ne_zero hlimited)
  | fetching _ =>
    have hduration : 0 < reply.duration t.cache.config.fetchTimeout :=
      Nat.lt_min.mpr ⟨Nat.pos_of_ne_zero hreply, Nat.pos_of_ne_zero htimeout⟩
    exact Nat.lt_add_of_pos_right hduration

theorem GoesOn.overdue_eq {wake : Bool} {phase : Phase} (hd : t.Distinct) (hl : l ∈ t.loops)
    (hlive : l.cancelled = false) (h : t.GoesOn l reply wake phase t') (hlater : t.now < t.deadline { l with phase }) :
    t'.overdue + t.burden l + t.cache.wake.toNat = t.overdue + wake.toNat := by
  have hwoken : ({ l with phase } : Loop).isWoken = false := by cases h.enters <;> rfl
  have hburden : t.burden { l with phase } = 0 := by
    rw [burden, hwoken, decide_eq_false (Nat.not_le.mpr hlater)]
    simp only [hlive, Bool.toNat_false]
  have hreplaced := overdue_replace [{ l with phase }] hd hl h.now_eq h.config_eq h.calls_eq
    (h.loops_eq ▸ List.perm_append_comm)
  rwa [List.map_singleton, List.sum_singleton, hburden, h.wake_eq, Nat.add_zero] at hreplaced

/-- A wake-up that the loop was handed is given back. -/
theorem exists_proceed (hd : t.Distinct) (hs : t.Single) (hl : l ∈ t.loops) (hlive : l.cancelled = false)
    (hdue : t.deadline l ≤ t.now) (reply : Reply) :
    ∃ t' wake phase, t.act? (.proceed l.id reply) = some t' ∧ t.GoesOn l reply wake phase t' ∧
      wake.toNat ≤ t.cache.wake.toNat + l.isWoken.toNat := by
  have hfound := loop?_of_mem hd hl
  have hturn : (l.cancelled || decide (t.now < t.deadline l)) = false := by
    rw [hlive, Bool.false_or, decide_eq_false (Nat.not_lt.mpr hdue)]
  cases hphase : l.phase with
  | fetching a =>
    obtain ⟨phase, h⟩ := goesOn_conclude hs hl hphase reply
    exact ⟨_, _, phase, by simp only [act?, hfound, hturn, Bool.false_eq_true, if_false, hphase], h,
      Nat.le_add_right _ _⟩
  | idle _ | woken _ | held _ =>
    obtain ⟨phase, h⟩ := goesOn_cycle t l reply (t.cache.wake || l.isWoken)
    exact ⟨_, _, phase, by simp only [act?, hfound, hturn, Bool.false_eq_true, if_false, hphase, giveBack], h,
      toNat_or_le _ _⟩

theorem exists_awaken (hd : t.Distinct) (hl : l ∈ t.loops) (hawaken : l.canAwaken = true) (reply : Reply) :
    ∃ t' phase, t.act? (.awaken l.id reply) = some t' ∧ t.GoesOn l reply t.cache.wake phase t' := by
  obtain ⟨phase, h⟩ := goesOn_takeWake t l reply
  exact ⟨_, phase, by simp only [act?, loop?_of_mem hd hl, hawaken, if_true], h⟩

theorem canPass_of_isQuiet (h : t.isQuiet = true) : t.canPass 1 = true := by
  obtain ⟨hcalls, hloops⟩ := isQuiet_iff.mp h
  rw [canPass, h, Bool.true_and, List.all_eq_true]
  intro e he
  rcases List.mem_append.mp he with he | he
  · obtain ⟨c, hc, rfl⟩ := List.mem_map.mp he
    exact decide_eq_true (hcalls c hc)
  · obtain ⟨l, hl, rfl⟩ := List.mem_map.mp he
    exact decide_eq_true (hloops l hl).2.1

theorem runBy?_append {allowed : Timeline → Action → Bool} {actions' : List Action} :
    t.runBy? allowed (actions ++ actions') = (t.runBy? allowed actions).bind (·.runBy? allowed actions') := by
  induction actions generalizing t with
  | nil => rfl
  | cons a as ih =>
    rw [List.cons_append, runBy?, runBy?]
    split
    · rw [Option.bind_assoc]
      exact congrArg _ (funext fun t₁ => ih)
    · rfl

end Timeline

theorem CacheConfig.intervals_ne_zero (h : config.fault? = none) :
    config.refreshInterval ≠ 0 ∧ config.fetchTimeout ≠ 0 := by
  unfold fault? at h
  split at h
  · cases h
  · split at h
    · cases h
    · rename_i hinterval
      split at h
      · cases h
      · rename_i htimeout
        exact ⟨hinterval, htimeout⟩

theorem Reachable.fault?_eq_none (ht : Reachable config t) : config.fault? = none := by
  induction ht with
  | step _ _ ih => exact ih
  | start origin h =>
    unfold Cache.new CacheConfig.validate at h
    cases hfault : config.fault? with
    | none => rfl
    | some fault =>
      rw [hfault] at h
      cases h

/-- Something can be done at once without cancelling a loop, and there is less to do after that. -/
def Timeline.Progresses (t : Timeline) : Prop :=
  ∃ action t', onTime t action = true ∧ action.isCancel = false ∧ t.step? action = some t' ∧ t'.now = t.now ∧
    t'.overdue < t.overdue

/-- What an action does counts, not what is handed to a loop after it. -/
theorem Timeline.progresses_of_act (hd : t.Distinct) (hallowed : onTime t action = true)
    (hcancel : action.isCancel = false) (hact : t.act? action = some t') (hnow : t'.now = t.now)
    (hless : t'.overdue < t.overdue) : t.Progresses := by
  have hd' := (effect_of_move hd (move_of_act hact)).distinct
  obtain ⟨hhand, -⟩ := hand_frame t'
  refine ⟨action, t'.hand, hallowed, hcancel, step_of_act hact, hhand.trans hnow, ?_⟩
  rwa [overdue_hand hd']

/-- Whatever is due can be done at once. -/
theorem ReachableBy.progresses (ht : ReachableBy onTime config t) (h : ¬ t.isQuiet = true) : t.Progresses := by
  have hd := ht.reachable.distinct
  obtain ⟨hinterval, htimeout⟩ := CacheConfig.intervals_ne_zero ht.reachable.fault?_eq_none
  rw [← ht.reachable.config_eq] at hinterval htimeout
  let reply : Reply := ⟨1, .ok .empty⟩
  by_cases hcalls : ∃ c ∈ t.calls, t.due c.attempt ≤ t.now
  · obtain ⟨c, hc, hdue⟩ := hcalls
    obtain ⟨t₁, hact, hnow, hless⟩ := Timeline.exists_complete hd hc hdue
    exact Timeline.progresses_of_act hd rfl rfl hact hnow hless
  by_cases hcancelled : ∃ l ∈ t.loops, l.cancelled = true
  · obtain ⟨l, hl, hcancelled⟩ := hcancelled
    obtain ⟨t₁, hact, hnow, hless⟩ := Timeline.exists_drop hd hl hcancelled
    exact Timeline.progresses_of_act hd rfl rfl hact hnow hless
  push Not at hcancelled
  have hlive : ∀ l ∈ t.loops, l.cancelled = false := fun l hl => Bool.not_eq_true _ ▸ hcancelled l hl
  by_cases hloops : ∃ l ∈ t.loops, t.deadline l ≤ t.now
  · obtain ⟨l, hl, hdue⟩ := hloops
    obtain ⟨t₁, wake, phase, hact, hgoes, hwake⟩ :=
      Timeline.exists_proceed hd ht.reachable.single hl (hlive l hl) hdue reply
    have hless := hgoes.overdue_eq hd hl (hlive l hl) (hgoes.now_lt hinterval htimeout Nat.one_ne_zero)
    rw [Timeline.burden, decide_eq_true hdue, Bool.toNat_true] at hless
    exact Timeline.progresses_of_act hd rfl rfl hact hgoes.now_eq (by omega)
  by_cases hwakes : ∃ l ∈ t.loops, l.isWoken = true
  · obtain ⟨l, hl, hwoken⟩ := hwakes
    have hawaken : l.canAwaken = true := Loop.canAwaken_iff.mpr ⟨hwoken, hlive l hl⟩
    obtain ⟨t₁, phase, hact, hgoes⟩ := Timeline.exists_awaken hd hl hawaken reply
    have hless := hgoes.overdue_eq hd hl (hlive l hl) (hgoes.now_lt hinterval htimeout Nat.one_ne_zero)
    rw [Timeline.burden, hwoken, Bool.toNat_true] at hless
    exact Timeline.progresses_of_act hd rfl rfl hact hgoes.now_eq (by omega)
  push Not at hcalls hloops hwakes
  exact absurd (Timeline.isQuiet_iff.mpr
    ⟨hcalls, fun l hl => ⟨hlive l hl, hloops l hl, Bool.not_eq_true _ ▸ hwakes l hl⟩⟩) h

theorem ReachableBy.exists_quiet (ht : ReachableBy onTime config t) :
    ∃ actions t', t.runBy? onTime actions = some t' ∧ t'.now = t.now ∧ t'.isQuiet = true ∧
      ∀ a ∈ actions, a.isCancel = false := by
  -- on what is overdue: no answer comes at once, so whatever is done does not come back before time passes
  induction hn : t.overdue using Nat.strong_induction_on generalizing t with
  | _ n ih =>
    by_cases hquiet : t.isQuiet = true
    · exact ⟨[], t, rfl, rfl, hquiet, nofun⟩
    · obtain ⟨action, t₁, hallowed, hcancel, hstep, hnow, hless⟩ := ht.progresses hquiet
      obtain ⟨actions, t', hrun, hnow', hquiet', hcancels⟩ := ih _ (hn ▸ hless) (ht.step hallowed hstep) rfl
      refine ⟨action :: actions, t', ?_, hnow'.trans hnow, hquiet', List.forall_mem_cons.mpr ⟨hcancel, hcancels⟩⟩
      rw [Timeline.runBy?, if_pos hallowed, hstep]
      exact hrun

/-- **Nothing stops time.** Runs go on for as long as one likes with nobody late and no loop cancelled. -/
theorem ReachableBy.exists_later (ht : ReachableBy onTime config t) (d : Nat) :
    ∃ actions t', t.runBy? onTime actions = some t' ∧ t'.now = t.now + d ∧ ∀ a ∈ actions, a.isCancel = false := by
  induction d generalizing t with
  | zero => exact ⟨[], t, rfl, rfl, nofun⟩
  | succ d ih =>
    obtain ⟨before, t₁, hrun₁, hnow₁, hquiet, hcancels₁⟩ := ht.exists_quiet
    have hallowed : onTime t₁ (.pass 1) = true := Timeline.canPass_of_isQuiet hquiet
    have ht₂ := (ht.run hrun₁).step hallowed rfl
    obtain ⟨after, t', hrun, hnow, hcancels⟩ := ih ht₂
    refine ⟨before ++ .pass 1 :: after, t', ?_, ?_, ?_⟩
    · rw [Timeline.runBy?_append, hrun₁, Option.bind_some, Timeline.runBy?, if_pos hallowed]
      exact hrun
    · have hpassed : t'.now = t₁.now + 1 + d := hnow.trans (congrArg (· + d) (Timeline.hand_frame _).1)
      omega
    · exact List.forall_mem_append.mpr ⟨hcancels₁, List.forall_mem_cons.mpr ⟨rfl, hcancels⟩⟩

end DeviceTrust.KeySet
