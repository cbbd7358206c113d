import DeviceTrust.Proofs.KeySet.Accounting
import DeviceTrust.Proofs.KeySet.Turns

/-!
# Every failure is reported once

Handlers are a matter of handles, not of the cache: an error is given to the handler of the handle through
which the refresh was asked for, or with which the loop was started. `failure?` says of an action which
refresh it brings to an error. One action adds that failure to the history and, if the handle reports
errors, one report of it; nothing else is added that a handler would hear of. A run adds up what its
actions add.
-/

namespace DeviceTrust.KeySet

variable {config : CacheConfig} {t t' : Timeline} {action : Action} {actions earlier : List Action} {l : Loop}
  {f : Flight}

/-- A refresh that came to an error: when, whose attempt it was, and which error. -/
structure Failure where
  moment : Nat
  flight : Flight
  error : Error

/-- What is noted of a failure, in an answer or in a report. -/
def Failure.note (x : Failure) : Nat × Actor × Error := (x.moment, x.flight.who, x.error)

/-- The error of an attempt: it took longer than the limit, it brought no keys, or it brought an error. -/
def Reply.FailsWith (r : Reply) (limit : Duration) (e : Error) : Prop :=
  (limit < r.delay ∧ e = .timeout limit) ∨
  (r.delay ≤ limit ∧ ∃ keys, r.result = .ok keys ∧ keys.isEmpty = true ∧ e = .document .empty) ∨
  (r.delay ≤ limit ∧ r.result = .error e)

theorem Reply.outcome_eq_error_iff {r : Reply} {limit : Duration} {e : Error} :
    r.outcome limit = .error e ↔ r.FailsWith limit e := by
  unfold outcome FailsWith
  by_cases hlate : limit < r.delay
  · simp [hlate, Nat.not_le.mpr hlate, @eq_comm _ e]
  · rw [if_neg hlate]
    have hintime : r.delay ≤ limit := Nat.not_lt.mp hlate
    cases r.result with
    | error e' => simp [hlate, hintime]
    | ok keys => cases hempty : keys.isEmpty <;> simp [hlate, hintime, hempty, @eq_comm _ e]

def Occurrence.isReport : Occurrence → Bool
  | .reported _ _ => true
  | _ => false

namespace Timeline

/-- The refreshes that were answered with an error, first to last. -/
def failed (t : Timeline) : List (Nat × Actor × Error) :=
  t.history.reverse.filterMap fun
    | (moment, .answered who (.failed e)) => some (moment, who, e)
    | _ => none

def reported (t : Timeline) : List (Nat × Actor × Error) :=
  t.history.reverse.filterMap fun
    | (moment, .reported who e) => some (moment, who, e)
    | _ => none

def ending? (t : Timeline) : Action → Option Flight
  | .complete id => (t.call? id).map Call.flight
  | .proceed id _ => (t.loop? id).bind Loop.flight?
  | _ => none

def failureOf? (t : Timeline) (f : Flight) : Option Failure :=
  match f.attempt.reply.outcome t.cache.config.fetchTimeout with
  | .ok _ => none
  | .error e => some ⟨t.now, f, e⟩

/-- The refresh that an action brings to an error. -/
def failure? (t : Timeline) (a : Action) : Option Failure := (t.ending? a).bind t.failureOf?

theorem failure?_eq_some {x : Failure} (h : t.failure? action = some x) :
    t.ending? action = some x.flight ∧ t.now = x.moment ∧
      x.flight.attempt.reply.FailsWith t.cache.config.fetchTimeout x.error := by
  obtain ⟨f, hending, hf⟩ := Option.bind_eq_some_iff.mp h
  unfold failureOf? at hf
  split at hf
  · cases hf
  · rename_i hfails
    cases hf
    exact ⟨hending, rfl, Reply.outcome_eq_error_iff.mp hfails⟩

def failures (t : Timeline) : List Action → List Failure
  | [] => []
  | a :: as => (t.failure? a).toList ++ ((t.step? a).map fun t => t.failures as).getD []

def Silent (o : Occurrence) : Prop := o.isFailure = false ∧ o.isReport = false

theorem failed_of_silent {o : Nat × Occurrence} (ho : Silent o.2) (h : t'.history = o :: t.history) :
    t'.failed = t.failed ∧ t'.reported = t.reported := by
  obtain ⟨moment, o⟩ := o
  rw [failed, reported, h, List.reverse_cons, List.filterMap_append, List.filterMap_append]
  cases o with
  | answered who outcome =>
    cases outcome with
    | failed e => cases ho.1
    | refreshed _ | inFlight | rateLimited _ => simp [failed, reported]
  | reported who e => cases ho.2
  | began _ _ | abandoned _ | missed _ => simp [failed, reported]

theorem failed_of_endings (h : t'.history =
    (f.endings t.cache.config.fetchTimeout).map (fun o => (t.now, o)) ++ t.history) :
    t'.failed = t.failed ++ (t.failureOf? f).toList.map Failure.note ∧
      t'.reported = t.reported ++ ((t.failureOf? f).toList.filter (·.flight.reports)).map Failure.note := by
  rw [failed, reported, h, failureOf?]
  unfold Flight.endings
  cases f.attempt.reply.outcome t.cache.config.fetchTimeout with
  | ok keys => simp [failed, reported]
  | error e => cases hreports : f.reports <;> simp [failed, reported, Failure.note, hreports]

/-- At most one thing is noted, and it is neither a failure nor a report. -/
def Quiet (t t' : Timeline) : Prop := t'.history = t.history ∨ ∃ o, Silent o.2 ∧ t'.history = o :: t.history

theorem quiet_request (t : Timeline) (who : Actor) (reply : Reply) : t.Quiet (t.request who reply).1 := by
  cases h : t.cache.admission t.now with
  | inFlight =>
    rw [request_inFlight h]
    exact .inr ⟨_, ⟨rfl, rfl⟩, rfl⟩
  | rateLimited d =>
    rw [request_rateLimited h]
    exact .inr ⟨_, ⟨rfl, rfl⟩, rfl⟩
  | admitted =>
    rw [request_admitted h]
    exact .inr ⟨_, ⟨rfl, rfl⟩, rfl⟩

theorem quiet_cycle (t : Timeline) (l : Loop) (reply : Reply) : t.Quiet (t.cycle l reply) := by
  have hhistory : (t.cycle l reply).history = (t.request (.loop l.id) reply).1.history := by
    unfold cycle
    split <;> rename_i hrequest <;> rw [hrequest] <;> rfl
  rw [Quiet, hhistory]
  exact quiet_request t (.loop l.id) reply

theorem quiet_takeWake (t : Timeline) (l : Loop) (reply : Reply) : t.Quiet (t.takeWake l reply) := by
  unfold takeWake
  split
  · exact quiet_cycle t l reply
  · exact .inl rfl

theorem history_of_move (h : t.Move action t') :
    (∃ f, t.ending? action = some f ∧
      t'.history = (f.endings t.cache.config.fetchTimeout).map (fun o => (t.now, o)) ++ t.history) ∨
    (t.ending? action = none ∧ t.Quiet t') := by
  cases h with
  | refused | delayed | began | withdrawn | missed => exact .inr ⟨rfl, .inr ⟨_, ⟨rfl, rfl⟩, rfl⟩⟩
  | @completed c hc =>
    refine .inl ⟨c.flight, congrArg (Option.map Call.flight) hc, ?_⟩
    rw [conclude_eq]
    rfl
  | @rested l reply a hl _ hphase =>
    refine .inl ⟨_, (congrArg (Option.bind · Loop.flight?) hl).trans (Loop.flight?_of_fetching hphase), ?_⟩
    rw [conclude_eq]
    rfl
  | @cycled l reply hl _ hphase =>
    have hnone : l.flight? = none := Loop.flight?_eq_none_iff.mpr hphase
    exact .inr ⟨(congrArg (Option.bind · Loop.flight?) hl).trans hnone, quiet_cycle (t.giveBack l) l reply⟩
  | @awoken l reply => exact .inr ⟨rfl, quiet_takeWake t l reply⟩
  | found | spawned | cancelled | dropped | passed => exact .inr ⟨rfl, .inl rfl⟩
  | abandoned => exact .inr ⟨rfl, .inr ⟨_, ⟨rfl, rfl⟩, rfl⟩⟩

/-- **An action ends an attempt, or it has nothing to do with failures.** -/
theorem history_of_step (h : t.step? action = some t') :
    (∃ f, t.ending? action = some f ∧
      t'.history = (f.endings t.cache.config.fetchTimeout).map (fun o => (t.now, o)) ++ t.history) ∨
    (t.ending? action = none ∧ t.Quiet t') := by
  obtain ⟨t₁, hmove, rfl⟩ := move_of_step h
  obtain ⟨-, -, hhistory, -⟩ := hand_frame t₁
  rw [Quiet, hhistory]
  exact history_of_move hmove

/-- What one action adds to the failures it adds to the reports, if the handle reports errors. -/
theorem failed_of_step (h : t.step? action = some t') :
    t'.failed = t.failed ++ (t.failure? action).toList.map Failure.note ∧
      t'.reported = t.reported ++ ((t.failure? action).toList.filter (·.flight.reports)).map Failure.note := by
  rcases history_of_step h with ⟨f, hending, hhistory⟩ | ⟨hending, hquiet⟩
  · rw [failure?, hending]
    exact failed_of_endings hhistory
  · have hsame : t'.failed = t.failed ∧ t'.reported = t.reported := by
      rcases hquiet with hhistory | ⟨o, ho, hhistory⟩
      · rw [failed, reported, hhistory]
        exact ⟨rfl, rfl⟩
      · exact failed_of_silent ho hhistory
    simp [failure?, hending, hsame]

/-- **What a run adds to the failures and to the reports.** -/
theorem failed_of_run (h : t.run? actions = some t') :
    t'.failed = t.failed ++ (t.failures actions).map Failure.note ∧
      t'.reported = t.reported ++ ((t.failures actions).filter (·.flight.reports)).map Failure.note := by
  induction actions generalizing t with
  | nil =>
    cases h
    simp [failures]
  | cons a as ih =>
    obtain ⟨t₁, hstep, hrun⟩ := Option.bind_eq_some_iff.mp h
    obtain ⟨hfailed, hreported⟩ := failed_of_step hstep
    obtain ⟨hfailed', hreported'⟩ := ih hrun
    rw [hfailed', hreported', hfailed, hreported]
    simp [failures, hstep]

end Timeline

/-- Whether the handle reports errors through which somebody comes in an action. -/
def Action.handle? (who : Actor) : Action → Option Bool
  | .refresh id reports _ => if who = .caller id then some reports else none
  | .spawn id reports => if who = .loop id then some reports else none
  | _ => none

/-- Whether the handle reports errors through which somebody came last. -/
def handleOf (actions : List Action) (who : Actor) : Option Bool := actions.reverse.findSome? (Action.handle? who)

theorem handleOf_concat (actions : List Action) (a : Action) (who : Actor) :
    handleOf (actions ++ [a]) who = (a.handle? who).or (handleOf actions who) := by
  rw [handleOf, List.reverse_append, List.reverse_singleton, List.singleton_append, List.findSome?_cons, handleOf]
  cases a.handle? who <;> rfl

namespace Timeline

/-- Everybody who is there, and whether the handle reports errors. -/
def handles (t : Timeline) : List (Actor × Bool) :=
  t.calls.map (fun c => (.caller c.id, c.reports)) ++ t.loops.map fun l => (.loop l.id, l.reports)

/-- Everybody is still with the handle through which he came. -/
def Handled (t : Timeline) (actions : List Action) : Prop := ∀ p ∈ t.handles, handleOf actions p.1 = some p.2

theorem mem_handles_of_ending (h : t.ending? action = some f) : (f.who, f.reports) ∈ t.handles := by
  cases action with
  | complete id =>
    obtain ⟨c, hc, rfl⟩ := Option.map_eq_some_iff.mp h
    exact List.mem_append_left _ (List.mem_map.mpr ⟨c, (of_call? hc).1, rfl⟩)
  | proceed id reply =>
    obtain ⟨l, hl, hf⟩ := Option.bind_eq_some_iff.mp h
    unfold Loop.flight? at hf
    split at hf
    · cases hf
      exact List.mem_append_right _ (List.mem_map.mpr ⟨l, (of_loop? hl).1, rfl⟩)
    · cases hf
  | _ => cases h

theorem handle?_of_step (h : t.step? action = some t') {p : Actor × Bool} (hp : p ∈ t.handles) :
    action.handle? p.1 = none := by
  have hcallers (id : Nat) (hnew : ∀ c ∈ t.calls, c.id ≠ id) : p.1 ≠ .caller id := by
    rcases List.mem_append.mp hp with hp | hp
    · obtain ⟨c, hc, rfl⟩ := List.mem_map.mp hp
      exact fun hwho => hnew c hc (Actor.caller.inj hwho)
    · obtain ⟨l, -, rfl⟩ := List.mem_map.mp hp
      exact Actor.noConfusion
  obtain ⟨t₁, hmove, -⟩ := move_of_step h
  cases hmove with
  | refused hnew | delayed hnew | began hnew => exact if_neg (hcallers _ hnew)
  | @spawned id reports hnew =>
    refine if_neg ?_
    rcases List.mem_append.mp hp with hp | hp
    · obtain ⟨c, -, rfl⟩ := List.mem_map.mp hp
      exact Actor.noConfusion
    · obtain ⟨l, hl, rfl⟩ := List.mem_map.mp hp
      exact fun hwho => hnew l hl (Actor.loop.inj hwho)
  | _ => rfl

theorem mem_handles_of_enter {phase : Phase} (hl : l ∈ t.loops) {p : Actor × Bool}
    (hp : p ∈ (t.enter l phase).handles) : p ∈ t.handles := by
  rcases List.mem_append.mp hp with hp | hp
  · exact List.mem_append_left _ hp
  · obtain ⟨k, hk, rfl⟩ := List.mem_map.mp hp
    rcases mem_enter.mp hk with ⟨hk, -⟩ | rfl
    · exact List.mem_append_right _ (List.mem_map.mpr ⟨k, hk, rfl⟩)
    · exact List.mem_append_right _ (List.mem_map.mpr ⟨l, hl, rfl⟩)

theorem mem_handles_of_goesOn {reply : Reply} {wake : Bool} {phase : Phase} (hl : l ∈ t.loops)
    (h : t.GoesOn l reply wake phase t') {p : Actor × Bool} (hp : p ∈ t'.handles) : p ∈ t.handles := by
  rw [handles, h.calls_eq, h.loops_eq] at hp
  exact mem_handles_of_enter hl hp

theorem mem_handles_of_sublist {p : Actor × Bool} (hp : p ∈ t'.handles) (hcalls : t'.calls.Sublist t.calls)
    (hloops : t'.loops.Sublist t.loops) : p ∈ t.handles :=
  ((hcalls.map _).append (hloops.map _)).subset hp

theorem mem_handles_of_still (hcalls : ∀ c ∈ t'.calls, c ∈ t.calls) (hloops : ∀ k ∈ t'.loops, ∃ l ∈ t.loops, l.Still k)
    {p : Actor × Bool} (hp : p ∈ t'.handles) : p ∈ t.handles := by
  rcases List.mem_append.mp hp with hp | hp
  · obtain ⟨c, hc, rfl⟩ := List.mem_map.mp hp
    exact List.mem_append_left _ (List.mem_map.mpr ⟨c, hcalls c hc, rfl⟩)
  · obtain ⟨k, hk, rfl⟩ := List.mem_map.mp hp
    obtain ⟨l, hl, hstill⟩ := hloops k hk
    exact List.mem_append_right _ (List.mem_map.mpr ⟨l, hl, by rw [hstill.id_eq, hstill.reports_eq]⟩)

theorem mem_handles_of_move (h : t.Move action t') {p : Actor × Bool} (hp : p ∈ t'.handles) :
    p ∈ t.handles ∨ action.handle? p.1 = some p.2 := by
  cases h with
  | refused | delayed | found | missed | passed => exact .inl hp
  | began =>
    simp only [handles, note, List.map_append, List.map_cons, List.map_nil, List.append_assoc, List.mem_append,
      List.mem_singleton] at hp ⊢
    rcases hp with hp | rfl | hp
    · exact .inl (.inl hp)
    · exact .inr (if_pos rfl)
    · exact .inl (.inr hp)
  | completed =>
    rw [conclude_eq] at hp
    exact .inl (mem_handles_of_sublist hp List.filter_sublist (.refl _))
  | withdrawn => exact .inl (mem_handles_of_sublist hp List.filter_sublist (.refl _))
  | rested hl =>
    rw [conclude_eq] at hp
    exact .inl (mem_handles_of_enter (t := t) (of_loop? hl).1 hp)
  | @cycled l reply hl =>
    obtain ⟨phase, hgoes⟩ := goesOn_cycle t l reply (t.cache.wake || l.isWoken)
    exact .inl (mem_handles_of_goesOn (of_loop? hl).1 hgoes hp)
  | @awoken l reply hl =>
    obtain ⟨phase, hgoes⟩ := goesOn_takeWake t l reply
    exact .inl (mem_handles_of_goesOn (of_loop? hl).1 hgoes hp)
  | spawned =>
    simp only [handles, List.map_append, List.map_cons, List.map_nil, List.mem_append, List.mem_singleton] at hp ⊢
    rcases hp with hp | hp | rfl
    · exact .inl (.inl hp)
    · exact .inl (.inr hp)
    · exact .inr (if_pos rfl)
  | cancelled =>
    refine .inl (mem_handles_of_still ?_ ?_ hp)
    · exact fun _ hc => hc
    · exact fun k hk => exists_of_mem_cancelled hk
  | abandoned | dropped => exact .inl (mem_handles_of_sublist hp (.refl _) List.filter_sublist)

/-- Whoever is there after an action was there before it, or came in it. -/
theorem mem_handles_of_step (h : t.step? action = some t') {p : Actor × Bool} (hp : p ∈ t'.handles) :
    p ∈ t.handles ∨ action.handle? p.1 = some p.2 := by
  obtain ⟨t₁, hmove, rfl⟩ := move_of_step h
  obtain ⟨-, hcalls, -⟩ := hand_frame t₁
  refine mem_handles_of_move hmove (mem_handles_of_still (fun c hc => hcalls ▸ hc) ?_ hp)
  intro k hk
  obtain ⟨l, hl, hstill, -⟩ := exists_of_mem_hand hk
  exact ⟨l, hl, hstill⟩

theorem Handled.step (hh : t.Handled earlier) (h : t.step? action = some t') : t'.Handled (earlier ++ [action]) := by
  intro p hp
  rw [handleOf_concat]
  rcases mem_handles_of_step h hp with hthere | hcame
  · rw [handle?_of_step h hthere]
    exact hh p hthere
  · rw [hcame]
    rfl

/-- Each failure of a run is that of an attempt that an action ended, under the handle of whoever made it. -/
theorem Handled.failures (hh : t.Handled earlier) (h : t.run? actions = some t') {x : Failure}
    (hx : x ∈ t.failures actions) :
    ∃ before action after t₁, actions = before ++ action :: after ∧ t.run? before = some t₁ ∧
      t₁.failure? action = some x ∧ handleOf (earlier ++ before) x.flight.who = some x.flight.reports := by
  induction actions generalizing t earlier with
  | nil => cases hx
  | cons a as ih =>
    obtain ⟨t₁, hstep, hrun⟩ := Option.bind_eq_some_iff.mp h
    rw [Timeline.failures, hstep, Option.map_some, Option.getD_some, List.mem_append] at hx
    rcases hx with hx | hx
    · have hfailure : t.failure? a = some x := Option.mem_toList.mp hx
      refine ⟨[], a, as, t, rfl, rfl, hfailure, ?_⟩
      rw [List.append_nil]
      exact hh _ (mem_handles_of_ending (failure?_eq_some hfailure).1)
    · obtain ⟨before, action, after, t₂, has, hbefore, hfailure, hhandle⟩ := ih (hh.step hstep) hrun hx
      refine ⟨a :: before, action, after, t₂, by rw [has]; rfl, ?_, hfailure, ?_⟩
      · rw [run?, hstep]
        exact hbefore
      · rwa [List.append_assoc] at hhandle

end Timeline

/-- **Every attempt is accounted for, and every failure is reported once.** In any run the attempts that began are
those that brought keys, those that came to an error, those that were given up, and the one under way, if
there is one. The errors that were answered are the failures of the run, one by one, and handlers were
called for the failures of handles that report errors and for nothing else. A failure is the end of an
attempt, with the error that the attempt came to, under the handle through which the refresh was asked for. -/
theorem attempts_accounted_failures_reported {cache : Cache} {origin : Moment} (hcache : Cache.new config = .ok cache)
    (hrun : (Timeline.start origin cache).run? actions = some t) :
    (t.begun = t.tally Occurrence.isSuccess + t.tally Occurrence.isFailure + t.tally Occurrence.isAbandonment +
        t.flights.length ∧
      t.flights.length = if t.cache.locked then 1 else 0) ∧
    (t.failed = ((Timeline.start origin cache).failures actions).map Failure.note ∧
      t.reported =
        (((Timeline.start origin cache).failures actions).filter (·.flight.reports)).map Failure.note) ∧
    ∀ x ∈ (Timeline.start origin cache).failures actions,
      x.flight.attempt.reply.FailsWith config.fetchTimeout x.error ∧
      ∃ before action after t₁, actions = before ++ action :: after ∧
        (Timeline.start origin cache).run? before = some t₁ ∧ t₁.now = x.moment ∧
        t₁.ending? action = some x.flight ∧ handleOf before x.flight.who = some x.flight.reports := by
  have hstart : Reachable config (.start origin cache) := .start origin hcache
  have ht := hstart.run hrun
  refine ⟨⟨?_, ht.single.length_flights_eq⟩, Timeline.failed_of_run hrun, fun x hx => ?_⟩
  · rw [Timeline.begun_eq_tally]
    exact ht.balanced
  · have hhandled : (Timeline.start origin cache).Handled [] := nofun
    obtain ⟨before, action, after, t₁, hactions, hbefore, hfailure, hhandle⟩ := hhandled.failures hrun hx
    obtain ⟨hending, hnow, hfails⟩ := Timeline.failure?_eq_some hfailure
    rw [(hstart.run hbefore).config_eq] at hfails
    exact ⟨hfails, before, action, after, t₁, hactions, hbefore, hnow, hending, hhandle⟩

/-- One attempt is too slow, one brings no keys through a handle without a handler, one is given up with its loop,
one brings a key, and one is under way. -/
theorem attempts_accounted_in_mixed_run :
    ∃ actions t, (Timeline.start 0 { config := .hourly }).run? actions = some t ∧ t.begun = 1 + 2 + 1 + 1 ∧
      t.failed = [(5000, .caller 1, .timeout 5000), (65010, .caller 2, .document .empty)] ∧
      t.reported = [(5000, .caller 1, .timeout 5000)] := by
  let slow : Reply := ⟨6000, .ok .empty⟩
  let blank : Reply := ⟨10, .ok .empty⟩
  let good : Reply := ⟨3, .ok ⟨[("k", .secret [0x2a])]⟩⟩
  let actions : List Action :=
    [.refresh 1 true slow, .pass 5000, .complete 1, .pass 60000, .refresh 2 false blank, .pass 10, .complete 2,
     .spawn 0 true, .pass 3600000, .proceed 0 slow, .cancel 0, .drop 0, .pass 60000, .refresh 1 false good, .pass 3,
     .complete 1, .pass 60000, .refresh 3 true good]
  have hend : ((Timeline.start 0 { config := .hourly }).run? actions).map (fun t =>
      (t.tally Occurrence.isSuccess, t.tally Occurrence.isFailure, t.tally Occurrence.isAbandonment, t.cache.locked)) =
      some (1, 2, 1, true) := by cbv
  have hfailures : (Timeline.start 0 { config := .hourly }).failures actions =
      [⟨5000, ⟨.caller 1, true, ⟨0, slow⟩⟩, .timeout 5000⟩,
       ⟨65010, ⟨.caller 2, false, ⟨65000, blank⟩⟩, .document .empty⟩] := by cbv
  obtain ⟨t, hrun, hcounts⟩ := Option.map_eq_some_iff.mp hend
  have hcache : Cache.new .hourly = .ok { config := .hourly } := rfl
  obtain ⟨⟨hbegun, hflights⟩, ⟨hfailed, hreported⟩, -⟩ := attempts_accounted_failures_reported hcache hrun
  simp only [Prod.mk.injEq] at hcounts
  obtain ⟨hsuccess, hfailure, habandonment, hlocked⟩ := hcounts
  rw [hfailures] at hfailed hreported
  refine ⟨actions, t, hrun, ?_, hfailed, hreported⟩
  rw [hbegun, hflights, hsuccess, hfailure, habandonment, hlocked]
  rfl

end DeviceTrust.KeySet
