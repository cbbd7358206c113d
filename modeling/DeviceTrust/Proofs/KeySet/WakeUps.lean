import DeviceTrust.Proofs.KeySet.Turns

/-!
# What becomes of the request of a miss

A miss stores a wake-up, which goes to a loop as soon as one waits for it. A loop that takes it waits
for the rate limit and then asks for a refresh, and its attempt begins after the miss, as it should. There
is one way out: the attempt that was under way at the time of the miss may still be under way when the loop
asks. The loop is then turned away like anybody else and its request is gone, although the attempt that
turned it away knows nothing of the miss. This takes an attempt that lasts as long as the rate limit, so it
cannot happen where attempts are cut off sooner and nobody is late.
-/

namespace DeviceTrust.KeySet

variable {config : CacheConfig} {t t' : Timeline} {l : Loop} {reply : Reply}

def isMiss : Nat × Occurrence → Bool
  | (_, .missed _) => true
  | _ => false

def Action.isCancel : Action → Bool
  | .cancel _ => true
  | _ => false

/-- Anything may happen but the cancellation of a loop. -/
def uncancelled (_ : Timeline) (a : Action) : Bool := !a.isCancel

/-- No loop is cancelled, and nobody is late: what was due has been done. -/
def punctual (t : Timeline) (a : Action) : Bool := !a.isCancel && t.deadlines.all fun d => t.now ≤ d

theorem ReachableBy.uncancelled_of_punctual (ht : ReachableBy punctual config t) :
    ReachableBy uncancelled config t := by
  induction ht with
  | start origin h => exact .start origin h
  | step _ hallowed h ih => exact ih.step (Bool.and_eq_true_iff.mp hallowed).1 h

theorem Cache.remaining_eq_zero_of_le {c : Cache} {d now : Nat} (h : c.remaining d = 0) (hle : d ≤ now) :
    c.remaining now = 0 := by
  unfold remaining at *
  split
  · rename_i s hlast
    rw [hlast] at h
    exact Nat.le_zero.mp (h ▸ Nat.sub_le_sub_left (Nat.sub_le_sub_right hle s) _)
  · rfl

theorem Cache.remaining_congr {c c' : Cache} (hlast : c'.lastAttempt = c.lastAttempt) (hconfig : c'.config = c.config) :
    c'.remaining = c.remaining := by
  funext now
  rw [remaining, remaining, hlast, hconfig]

namespace Timeline

theorem Spaced.remaining_after {interval : Nat} (hs : t.Spaced interval) :
    t.cache.remaining (t.now + t.cache.remaining t.now) = 0 := by
  have hleft := hs.remaining_eq
  rw [Cache.remaining, hs.remembered, hs.interval_eq]
  cases hstarts : t.starts.head? with
  | none => rfl
  | some s =>
    rw [hstarts] at hleft
    have hpast := hs.past s (List.mem_of_mem_head? hstarts)
    have hover : interval - (t.now + (s + interval - t.now) - s) = 0 := by omega
    rw [hleft]
    exact hover

/-- What happened since the latest attempt began, latest first. -/
def sinceBegun (t : Timeline) : List (Nat × Occurrence) := t.history.takeWhile fun o => (startOf? o).isNone

/-- What happened since the latest miss, latest first. -/
def sinceMissed (t : Timeline) : List (Nat × Occurrence) := t.history.takeWhile fun o => !isMiss o

/-- A key was asked for that is not there, and no attempt has begun since. -/
def Missed (t : Timeline) : Prop := ∃ moment kid, (moment, Occurrence.missed kid) ∈ t.sinceBegun

/-- A loop has taken a wake-up and waits until the rate limit lets an attempt begin. -/
def Waits (t : Timeline) (l : Loop) : Prop := ∃ deadline, l.phase = .held deadline ∧ t.cache.remaining deadline = 0

/-- A wake-up is stored, or a loop has been handed one and is to be run. -/
def Awake (t : Timeline) : Prop := t.cache.wake = true ∨ ∃ l ∈ t.loops, l.isWoken = true

/-- The request of a miss is still there: as a wake-up, or with a loop that waits. -/
def Requested (t : Timeline) : Prop := t.Awake ∨ ∃ l ∈ t.loops, t.Waits l

/-- Since the latest miss a loop was turned away by an attempt under way, at a moment at which the rate limit
since the latest attempt was over. -/
def Dismissed (t : Timeline) : Prop :=
  ∃ moment id, (moment, Occurrence.answered (.loop id) .inFlight) ∈ t.sinceMissed ∧ t.cache.remaining moment = 0

theorem isQuiet_iff : t.isQuiet = true ↔ (∀ c ∈ t.calls, t.now < t.due c.attempt) ∧
    ∀ l ∈ t.loops, l.cancelled = false ∧ t.now < t.deadline l ∧ l.isWoken = false := by
  simp only [isQuiet, canMove, Bool.and_eq_true, List.all_eq_true, decide_eq_true_eq, Bool.not_eq_true',
    Bool.or_eq_false_iff, decide_eq_false_iff_not, Nat.not_le, and_assoc]

/-- Where all that can be run has been run, no loop has yet to take a wake-up. -/
theorem Requested.of_isQuiet (h : t.Requested) (hquiet : t.isQuiet = true) :
    t.cache.wake = true ∨ ∃ l ∈ t.loops, t.Waits l := by
  rcases h with (hstored | ⟨l, hl, hwoken⟩) | hwaits
  · exact .inl hstored
  · have hasleep := ((isQuiet_iff.mp hquiet).2 l hl).2.2
    rw [hwoken] at hasleep
    cases hasleep
  · exact .inr hwaits

/-- Nothing is lost of the requests, and what is noted is neither the beginning of an attempt nor a miss. -/
structure Keeps (t t' : Timeline) : Prop where
  remaining_eq : t'.cache.remaining = t.cache.remaining
  awake : t.Awake → t'.Awake
  waiting : ∀ l ∈ t.loops, t.Waits l → l ∈ t'.loops
  history : ∃ notes, t'.history = notes ++ t.history ∧ ∀ o ∈ notes, startOf? o = none ∧ isMiss o = false

/-- What becomes of the requests in one action. -/
inductive Handling (t t' : Timeline) : Prop where
  | kept (h : t.Keeps t')
  | missed (hawake : t'.Awake)
  | began (f : Flight) (hhistory : t'.history = (t.now, .began f.who f.attempt) :: t.history)
  /-- A loop takes the wake-up and waits. -/
  | taken (l : Loop) (hl : l ∈ t'.loops) (hwaits : t'.Waits l)
  /-- A loop that may have taken the wake-up is turned away. -/
  | dismissed (id : Nat) (hremaining : t'.cache.remaining = t.cache.remaining) (hover : t.cache.remaining t.now = 0)
      (hhistory : t'.history = (t.now, .answered (.loop id) .inFlight) :: t.history)

theorem Keeps.of_note {o : Occurrence} (hlast : t'.cache.lastAttempt = t.cache.lastAttempt)
    (hconfig : t'.cache.config = t.cache.config) (hhistory : t'.history = (t.now, o) :: t.history)
    (hawake : t.Awake → t'.Awake) (hwaiting : ∀ l ∈ t.loops, t.Waits l → l ∈ t'.loops)
    (hstart : startOf? (t.now, o) = none) (hmiss : isMiss (t.now, o) = false) : t.Keeps t' := by
  refine ⟨Cache.remaining_congr hlast hconfig, hawake, hwaiting, [(t.now, o)], hhistory, ?_⟩
  intro o' ho'
  obtain rfl := List.mem_singleton.mp ho'
  exact ⟨hstart, hmiss⟩

theorem awake_of_loops (hwake : t'.cache.wake = t.cache.wake) (hloops : ∀ l ∈ t.loops, l ∈ t'.loops) (h : t.Awake) :
    t'.Awake := by
  rcases h with hstored | ⟨l, hl, hwoken⟩
  · exact .inl (hwake ▸ hstored)
  · exact .inr ⟨l, hloops l hl, hwoken⟩

theorem mem_enter_of_ne {k : Loop} (hd : t.Distinct) (hl : l ∈ t.loops) (hk : k ∈ t.loops) (hne : k ≠ l)
    (phase : Phase) : k ∈ (t.enter l phase).loops :=
  mem_enter.mpr (.inl ⟨hk, hd.id_ne hk hl hne⟩)

/-- A loop that goes on gives back the wake-up it was handed, if it has not taken it. -/
theorem awake_enter (hd : t.Distinct) (hl : l ∈ t.loops) (phase : Phase)
    (hwake : t'.cache.wake = (t.giveBack l).cache.wake) (hloops : t'.loops = (t.enter l phase).loops) (h : t.Awake) :
    t'.Awake := by
  rw [Awake, hwake, hloops]
  rcases h with hstored | ⟨k, hk, hwoken⟩
  · exact .inl (by rw [giveBack, hstored, Bool.true_or])
  · by_cases hkl : k = l
    · exact .inl (by rw [giveBack, ← hkl, hwoken, Bool.or_true])
    · exact .inr ⟨k, mem_enter_of_ne hd hl hk hkl phase, hwoken⟩

/-- A loop that asks once the rate limit is over begins an attempt or is turned away, whatever became of the
wake-up before. -/
theorem handling_of_over (wake : Bool) (hover : t.cache.remaining t.now = 0) :
    t.Handling (({ t with cache := { t.cache with wake } } : Timeline).cycle l reply) := by
  cases h : t.cache.admission t.now with
  | inFlight =>
    rw [cycle, request_inFlight (t := { t with cache := { t.cache with wake } }) h]
    exact .dismissed l.id rfl hover rfl
  | rateLimited d =>
    obtain ⟨-, hd, hne⟩ := Cache.admission_eq_rateLimited.mp h
    exact absurd (hd.symm.trans hover) hne
  | admitted =>
    rw [cycle, request_admitted (t := { t with cache := { t.cache with wake } }) h]
    exact .began ⟨.loop l.id, l.reports, ⟨t.now, reply⟩⟩ rfl

theorem handling_cycle (hd : t.Distinct) (hl : l ∈ t.loops) (hidle : ¬ t.Waits l) :
    t.Handling ((t.giveBack l).cycle l reply) := by
  have hwaiting (phase : Phase) : ∀ k ∈ t.loops, t.Waits k → k ∈ (t.enter l phase).loops := by
    intro k hk hwaits
    exact mem_enter_of_ne hd hl hk (fun heq => hidle (heq ▸ hwaits)) phase
  cases h : t.cache.admission t.now with
  | inFlight =>
    rw [cycle, request_inFlight (t := t.giveBack l) h]
    exact .kept (.of_note rfl rfl rfl (awake_enter hd hl _ rfl rfl) (hwaiting _) rfl rfl)
  | rateLimited d =>
    rw [cycle, request_rateLimited (t := t.giveBack l) h]
    exact .kept (.of_note rfl rfl rfl (awake_enter hd hl _ rfl rfl) (hwaiting _) rfl rfl)
  | admitted =>
    rw [cycle, request_admitted (t := t.giveBack l) h]
    exact .began ⟨.loop l.id, l.reports, ⟨t.now, reply⟩⟩ rfl

theorem handling_takeWake {interval : Nat} (hs : t.Spaced interval) : t.Handling (t.takeWake l reply) := by
  rw [takeWake]
  by_cases hover : t.cache.remaining t.now = 0
  · rw [if_pos hover]
    exact handling_of_over t.cache.wake hover
  · rw [if_neg hover]
    refine .taken { l with phase := .held (t.now + t.cache.remaining t.now) } ?_ ⟨_, rfl, hs.remaining_after⟩
    exact List.mem_append_right _ (List.mem_singleton_self _)

/-- At the end of an attempt nothing is noted but what it came to and its error. -/
theorem mem_endings {f : Flight} {limit : Duration} {o : Occurrence} (h : o ∈ f.endings limit) :
    (∃ outcome, outcome.endsAttempt = true ∧ o = .answered f.who outcome) ∨ ∃ e, o = .reported f.who e := by
  unfold Flight.endings at h
  split at h
  · exact .inl ⟨_, rfl, List.mem_singleton.mp h⟩
  · rcases List.mem_cons.mp h with h | h
    · exact .inl ⟨_, rfl, h⟩
    · split at h
      · exact .inr ⟨_, List.mem_singleton.mp h⟩
      · cases h

theorem keeps_conclude (t : Timeline) (who : Actor) (reports : Bool) (a : Attempt) :
    t.Keeps (t.conclude who reports a) := by
  rw [conclude_eq]
  refine ⟨Cache.remaining_congr (Cache.finish_lastAttempt _ _ _) (Cache.finish_config _ _ _), ?_,
    fun l hl _ => hl, _, rfl, ?_⟩
  · exact awake_of_loops (Cache.finish_wake _ _ _) fun l hl => hl
  · intro o ho
    obtain ⟨note, hnote, rfl⟩ := List.mem_map.mp ho
    rcases mem_endings hnote with ⟨outcome, -, rfl⟩ | ⟨e, rfl⟩ <;> exact ⟨rfl, rfl⟩

/-- **What an action does to the requests of misses**, as long as no loop is cancelled. -/
theorem handling_of_move {interval : Nat} {action : Action} (hd : t.Distinct) (hs : t.Spaced interval)
    (hlive : ∀ l ∈ t.loops, l.cancelled = false) (hcancel : action.isCancel = false) (h : t.Move action t') :
    t.Handling t' := by
  cases h with
  | refused | delayed => exact .kept (.of_note rfl rfl rfl id (fun l hl _ => hl) rfl rfl)
  | @began id reports reply => exact .began ⟨.caller id, reports, ⟨t.now, reply⟩⟩ rfl
  | @completed c =>
    obtain ⟨hremaining, hawake, hwaiting, hhistory⟩ :=
      keeps_conclude { t with calls := t.calls.filter (·.id != c.id) } (.caller c.id) c.reports c.attempt
    exact .kept ⟨hremaining, hawake, hwaiting, hhistory⟩
  | withdrawn => exact .kept (.of_note rfl rfl rfl id (fun l hl _ => hl) rfl rfl)
  | @rested l reply a hl _ hphase =>
    obtain ⟨hremaining, -, -, hhistory⟩ := keeps_conclude t (.loop l.id) l.reports a
    have hmem := (of_loop? hl).1
    have hwoken : l.isWoken = false := by rw [Loop.isWoken, hphase]
    refine .kept ⟨hremaining, ?_, ?_, hhistory⟩
    · refine awake_enter hd hmem _ ?_ (by rw [conclude_eq]; rfl)
      rw [giveBack, hwoken, Bool.or_false, conclude_eq]
      exact Cache.finish_wake _ _ _
    · rw [conclude_eq]
      rintro k hk ⟨d, hheld, -⟩
      refine mem_enter_of_ne hd hmem hk ?_ _
      rintro rfl
      rw [hphase] at hheld
      cases hheld
  | @cycled l reply hl _ _ hdue =>
    by_cases hwaits : t.Waits l
    · -- a loop that waits goes on at its deadline, when the rate limit is over
      obtain ⟨d, hheld, hover⟩ := hwaits
      have hpassed : d ≤ t.now := by simpa only [deadline, hheld] using hdue
      exact handling_of_over _ (Cache.remaining_eq_zero_of_le hover hpassed)
    · exact handling_cycle hd (of_loop? hl).1 hwaits
  | awoken => exact handling_takeWake hs
  | found => exact .kept ⟨rfl, id, fun l hl _ => hl, [], rfl, List.forall_mem_nil _⟩
  | missed => exact .missed (.inl rfl)
  | spawned =>
    exact .kept ⟨rfl, awake_of_loops rfl fun l hl => List.mem_append_left _ hl, fun l hl _ => List.mem_append_left _ hl,
      [], rfl, List.forall_mem_nil _⟩
  | cancelled => cases hcancel
  | abandoned hl hcancelled | dropped hl hcancelled =>
    rw [hlive _ (of_loop? hl).1] at hcancelled
    cases hcancelled
  | passed => exact .kept ⟨rfl, id, fun l hl _ => hl, [], rfl, List.forall_mem_nil _⟩

theorem Waits.not_idle (h : t.Waits l) : l.isIdle = false := by
  obtain ⟨d, hheld, -⟩ := h
  rw [Loop.isIdle, hheld]

theorem Awake.hand (h : t.Awake) : t.hand.Awake := by
  rcases hand_cases t with heq | ⟨-, k, hk, hidle, heq⟩
  · rwa [heq]
  · have hmem := mem_adjust_of_mem k.id Loop.rouse hk
    rw [if_pos rfl] at hmem
    have hwoken : k.rouse.isWoken = true := by
      unfold Loop.isIdle at hidle
      split at hidle
      · rename_i d hphase
        simp only [Loop.isWoken, Loop.rouse, hphase]
      · cases hidle
    rw [heq]
    exact .inr ⟨k.rouse, hmem, hwoken⟩

theorem remaining_hand (t : Timeline) : t.hand.cache.remaining = t.cache.remaining := by
  obtain ⟨-, -, -, -, wake, hcache⟩ := hand_frame t
  rw [hcache]
  rfl

theorem keeps_hand (t : Timeline) : t.Keeps t.hand := by
  obtain ⟨-, -, hhistory, -⟩ := hand_frame t
  exact ⟨remaining_hand t, Awake.hand, fun l hl hwaits => mem_hand hl hwaits.not_idle, [], hhistory,
    List.forall_mem_nil _⟩

theorem Keeps.missed (h : t.Keeps t') (hmissed : t'.Missed) : t.Missed := by
  obtain ⟨notes, hhistory, hnotes⟩ := h.history
  obtain ⟨moment, kid, hmem⟩ := hmissed
  rw [sinceBegun, hhistory, List.takeWhile_append_of_pos fun o ho => by rw [(hnotes o ho).1]; rfl] at hmem
  rcases List.mem_append.mp hmem with hmem | hmem
  · cases (hnotes _ hmem).2
  · exact ⟨moment, kid, hmem⟩

theorem Keeps.requested (h : t.Keeps t') (hrequested : t.Requested) : t'.Requested := by
  rcases hrequested with hawake | ⟨l, hl, hwaits⟩
  · exact .inl (h.awake hawake)
  · obtain ⟨d, hheld, hover⟩ := hwaits
    exact .inr ⟨l, h.waiting l hl ⟨d, hheld, hover⟩, d, hheld, h.remaining_eq ▸ hover⟩

theorem Keeps.dismissed (h : t.Keeps t') (hdismissed : t.Dismissed) : t'.Dismissed := by
  obtain ⟨notes, hhistory, hnotes⟩ := h.history
  obtain ⟨moment, id, hmem, hover⟩ := hdismissed
  refine ⟨moment, id, ?_, h.remaining_eq ▸ hover⟩
  rw [sinceMissed, hhistory, List.takeWhile_append_of_pos fun o ho => by rw [(hnotes o ho).2]; rfl]
  exact List.mem_append_right _ hmem

/-- A request is still there until a loop is dismissed or an attempt begins. -/
theorem Handling.preserves (h : t.Handling t') (ht : t.Missed → t.Requested ∨ t.Dismissed) (hmissed : t'.Missed) :
    t'.Requested ∨ t'.Dismissed := by
  cases h with
  | kept h => exact (ht (h.missed hmissed)).imp h.requested h.dismissed
  | missed hawake => exact .inl (.inl hawake)
  | began f hhistory =>
    obtain ⟨moment, kid, hmem⟩ := hmissed
    rw [sinceBegun, hhistory, List.takeWhile_cons_of_neg (by simp [startOf?])] at hmem
    cases hmem
  | taken l hl hwaits => exact .inl (.inr ⟨l, hl, hwaits⟩)
  | dismissed id hremaining hover hhistory =>
    refine .inr ⟨t.now, id, ?_, hremaining ▸ hover⟩
    rw [sinceMissed, hhistory, List.takeWhile_cons_of_pos rfl]
    exact List.mem_cons_self

end Timeline

theorem ReachableBy.live (ht : ReachableBy uncancelled config t) : ∀ l ∈ t.loops, l.cancelled = false := by
  induction ht with
  | start origin h => exact nofun
  | @step t t' action ht hallowed h ih =>
    obtain ⟨t₁, hmove, rfl⟩ := Timeline.move_of_step h
    intro k hk
    obtain ⟨l, hl, -, hsame⟩ := Timeline.exists_of_mem_hand hk
    rw [hsame]
    cases ht.reachable.turn hmove with
    | kept _ hloops => exact ih l (hloops ▸ hl)
    | passed d _ h =>
      rw [h] at hl
      exact ih l hl
    | spawned new _ _ _ hlive _ hloops =>
      rw [hloops] at hl
      rcases List.mem_append.mp hl with hl | hl
      · exact ih l hl
      · obtain rfl := List.mem_singleton.mp hl
        exact hlive
    | cancelled id haction _ _ =>
      rw [haction] at hallowed
      cases hallowed
    | dropped _ _ _ _ _ hloops => exact ih l (List.mem_of_mem_filter (hloops ▸ hl))
    | wentOn old hold hlive _ _ phase h =>
      rcases Timeline.mem_enter.mp (h.loops_eq ▸ hl) with ⟨hl, -⟩ | rfl
      · exact ih l hl
      · exact hlive

theorem ReachableBy.requested_or_dismissed (ht : ReachableBy uncancelled config t) (hmissed : t.Missed) :
    t.Requested ∨ t.Dismissed := by
  induction ht with
  | start origin h =>
    obtain ⟨moment, kid, hmem⟩ := hmissed
    cases hmem
  | @step t t' action ht hallowed h ih =>
    obtain ⟨t₁, hmove, rfl⟩ := Timeline.move_of_step h
    have hhand := Timeline.keeps_hand t₁
    have hcancel : action.isCancel = false := Bool.not_eq_true' _ ▸ hallowed
    have hhandling := Timeline.handling_of_move ht.reachable.distinct ht.reachable.spaced ht.live hcancel hmove
    exact (hhandling.preserves ih (hhand.missed hmissed)).imp hhand.requested hhand.dismissed

namespace Timeline

/-- Whoever is turned away is turned away while the rate limit since the latest attempt still lasts. -/
structure Brisk (t : Timeline) : Prop where
  latest : ∀ f ∈ t.flights, t.cache.lastAttempt = some f.attempt.began
  past : ∀ o ∈ t.history, o.1 ≤ t.now
  refusals : ∀ moment who, (moment, Occurrence.answered who .inFlight) ∈ t.history → t.cache.remaining moment ≠ 0

theorem due_le (t : Timeline) (a : Attempt) : t.due a ≤ a.began + t.cache.config.fetchTimeout :=
  Nat.add_le_add_left (Nat.min_le_right _ _) _

theorem due_mem_deadlines {f : Flight} (h : f ∈ t.flights) : t.due f.attempt ∈ t.deadlines := by
  rcases List.mem_append.mp h with h | h
  · obtain ⟨c, hc, rfl⟩ := List.mem_map.mp h
    exact List.mem_append_left _ (List.mem_map.mpr ⟨c, hc, rfl⟩)
  · obtain ⟨l, hl, hf⟩ := List.mem_filterMap.mp h
    refine List.mem_append_right _ (List.mem_map.mpr ⟨l, hl, ?_⟩)
    unfold Loop.flight? at hf
    split at hf
    · rename_i a hphase
      cases hf
      rw [deadline, hphase]
    · cases hf

/-- An effect that begins no attempt keeps this, as long as it turns nobody away too late. -/
theorem Brisk.frame {now : Nat} {cache : Cache} {flights : List Flight} (hb : t.Brisk)
    (notes : List (Nat × Occurrence)) (h : t.Becomes now cache flights (notes ++ t.history) t') (hnow : t.now ≤ now)
    (hlast : cache.lastAttempt = t.cache.lastAttempt) (hconfig : cache.config = t.cache.config)
    (hflights : ∀ f ∈ flights, f ∈ t.flights)
    (hnotes : ∀ o ∈ notes, o.1 = t.now ∧ ∀ who, o.2 = .answered who .inFlight → t.cache.remaining t.now ≠ 0) :
    t'.Brisk := by
  obtain ⟨wake, hcache⟩ := h.cache_eq
  have hlast' : t'.cache.lastAttempt = t.cache.lastAttempt := by rw [hcache]; exact hlast
  have hremaining : t'.cache.remaining = t.cache.remaining :=
    Cache.remaining_congr hlast' (by rw [hcache]; exact hconfig)
  refine ⟨?_, ?_, ?_⟩
  · intro f hf
    rw [hlast']
    exact hb.latest f (hflights f (h.flights_perm.mem_iff.mp hf))
  · intro o ho
    rw [h.history_eq] at ho
    rw [h.now_eq]
    refine Nat.le_trans ?_ hnow
    rcases List.mem_append.mp ho with ho | ho
    · exact Nat.le_of_eq (hnotes o ho).1
    · exact hb.past o ho
  · intro moment who hmem
    rw [h.history_eq] at hmem
    rw [hremaining]
    rcases List.mem_append.mp hmem with hmem | hmem
    · obtain ⟨hmoment, hrefused⟩ := hnotes _ hmem
      obtain rfl : moment = t.now := hmoment
      exact hrefused who rfl
    · exact hb.refusals moment who hmem

/-- An attempt that is not overdue keeps others away only while the rate limit would do so too. -/
theorem Brisk.remaining_ne_zero (hs : t.Single) (hb : t.Brisk) (hpunctual : ∀ d ∈ t.deadlines, t.now ≤ d)
    (hcutoff : t.cache.config.fetchTimeout < t.cache.config.minRefreshInterval) (hlock : t.cache.locked = true) :
    t.cache.remaining t.now ≠ 0 := by
  cases hs with
  | idle hfree _ _ =>
    rw [hlock] at hfree
    cases hfree
  | busy f past _ hflights _ _ =>
    have hmem : f ∈ t.flights := hflights ▸ List.mem_singleton_self f
    have hdue := hpunctual _ (due_mem_deadlines hmem)
    have hcut := t.due_le f.attempt
    rw [Cache.remaining, hb.latest f hmem]
    have hspent : t.now - f.attempt.began ≤ t.cache.config.fetchTimeout :=
      Nat.sub_le_iff_le_add'.mpr (Nat.le_trans hdue hcut)
    exact Nat.sub_ne_zero_of_lt (Nat.lt_of_le_of_lt hspent hcutoff)

theorem Brisk.effect (hs : t.Single) (hb : t.Brisk) (hpunctual : ∀ d ∈ t.deadlines, t.now ≤ d)
    (hcutoff : t.cache.config.fetchTimeout < t.cache.config.minRefreshInterval) (h : t.Effect t') : t'.Brisk := by
  cases h with
  | passed d h => exact hb.frame [] h (Nat.le_add_right _ _) rfl rfl (fun f hf => hf) nofun
  | unconcerned h => exact hb.frame [] h (Nat.le_refl _) rfl rfl (fun f hf => hf) nofun
  | missed kid h => exact hb.frame [_] h (Nat.le_refl _) rfl rfl (fun f hf => hf) (by simp)
  | delayed who d _ h => exact hb.frame [_] h (Nat.le_refl _) rfl rfl (fun f hf => hf) (by simp)
  | refused who hbusy h =>
    have hleft := hb.remaining_ne_zero hs hpunctual hcutoff (Cache.admission_eq_inFlight.mp hbusy)
    refine hb.frame [_] h (Nat.le_refl _) rfl rfl (fun f hf => hf) ?_
    intro o ho
    obtain rfl := List.mem_singleton.mp ho
    exact ⟨rfl, fun _ _ => hleft⟩
  | abandoned f rest hflights h =>
    exact hb.frame [_] h (Nat.le_refl _) rfl rfl (fun g hg => hflights.mem_iff.mpr (List.mem_cons_of_mem _ hg))
      (by simp)
  | ended f rest hflights _ h =>
    refine hb.frame _ h (Nat.le_refl _) (Cache.finish_lastAttempt _ _ _) (Cache.finish_config _ _ _)
      (fun g hg => hflights.mem_iff.mpr (List.mem_cons_of_mem _ hg)) ?_
    intro o ho
    obtain ⟨note, hnote, rfl⟩ := List.mem_map.mp ho
    refine ⟨rfl, fun who hrefused => ?_⟩
    rcases mem_endings hnote with ⟨outcome, hends, rfl⟩ | ⟨e, rfl⟩ <;> cases hrefused
    cases hends
  | began f hadmitted hnow h =>
    -- what was noted so far was noted before this attempt, so all of its rate limit is left at those moments
    obtain ⟨wake, hcache⟩ := h.cache_eq
    have hnone := (hs.of_unlocked (Cache.admission_eq_admitted.mp hadmitted).1).1
    have hperm := h.flights_perm
    rw [hnone] at hperm
    have hflights := List.perm_singleton.mp hperm
    have hlast : t'.cache.lastAttempt = some t.now := by rw [hcache]; rfl
    have hconfig : t'.cache.config = t.cache.config := by rw [hcache]; rfl
    refine ⟨?_, ?_, ?_⟩
    · intro g hg
      rw [hflights] at hg
      obtain rfl := List.mem_singleton.mp hg
      rw [hlast, hnow]
    · rw [h.history_eq, h.now_eq]
      exact List.forall_mem_cons.mpr ⟨Nat.le_refl _, hb.past⟩
    · intro moment who hmem
      rw [h.history_eq] at hmem
      rcases List.mem_cons.mp hmem with hmem | hmem
      · cases hmem
      · have hbefore : moment ≤ t.now := hb.past _ hmem
        have hall : moment - t.now < t.cache.config.minRefreshInterval := by
          rw [Nat.sub_eq_zero_of_le hbefore]
          exact Nat.zero_lt_of_lt hcutoff
        rw [Cache.remaining, hlast, hconfig]
        exact Nat.sub_ne_zero_of_lt hall

end Timeline

theorem ReachableBy.brisk (ht : ReachableBy punctual config t)
    (hcutoff : config.fetchTimeout < config.minRefreshInterval) : t.Brisk := by
  induction ht with
  | start origin h =>
    unfold Cache.new at h
    split at h
    · cases h
      exact ⟨nofun, nofun, nofun⟩
    · cases h
  | step ht hallowed h ih =>
    have hall := (Bool.and_eq_true_iff.mp hallowed).2
    have hpunctual : ∀ d ∈ _, _ ≤ d := fun d hd => of_decide_eq_true (List.all_eq_true.mp hall d hd)
    have hreachable := ht.reachable
    have hconfig := hreachable.config_eq
    exact ih.effect hreachable.single hpunctual (by rw [hconfig]; exact hcutoff) (hreachable.effect h)

/-- **A miss is not forgotten while its attempt can still begin.** As long as no attempt has begun after a miss,
its request is there, as a wake-up or with a loop that waits for the rate limit, unless a loop has since been
turned away by an attempt that began before the miss and was still under way when its rate limit was over. No
attempt lasts that long where attempts are cut off sooner and nobody is late. Where all that can be run has been run,
the wake-up is stored, not on its way to a loop. -/
theorem miss_requested (hmissed : t.Missed) :
    (ReachableBy uncancelled config t → t.Requested ∨ t.Dismissed) ∧
    (config.fetchTimeout < config.minRefreshInterval → ReachableBy punctual config t → t.Requested) ∧
    (t.Requested → t.isQuiet = true → t.cache.wake = true ∨ ∃ l ∈ t.loops, t.Waits l) := by
  refine ⟨fun ht => ht.requested_or_dismissed hmissed, ?_, Timeline.Requested.of_isQuiet⟩
  intro hcutoff ht
  rcases ht.uncancelled_of_punctual.requested_or_dismissed hmissed with hrequested | hdismissed
  · exact hrequested
  · obtain ⟨moment, id, hmem, hover⟩ := hdismissed
    exact absurd hover ((ht.brisk hcutoff).refusals moment _ ((List.takeWhile_sublist _).subset hmem))

/-- A miss within the rate limit of the attempt before: a loop takes the wake-up and waits, and the request is with
it for as long as it does. -/
theorem miss_requested_within_rate_limit :
    ∃ t, ReachableBy punctual .hourly t ∧ t.Missed ∧ t.cache.wake = false ∧ t.Requested ∧ t.isQuiet = true := by
  let failing : Reply := ⟨0, .error (.network .connection)⟩
  let t : Timeline :=
    { now := 20000, origin := 0, cache := { config := .hourly, lastAttempt := some 0 }, calls := [],
      loops := [⟨0, true, 0, .held 60000, false⟩],
      history :=
        [(7000, .missed "k"), (0, .answered (.caller 1) (.failed (.network .connection))),
         (0, .began (.caller 1) ⟨0, failing⟩)] }
  have hrun : (Timeline.start 0 { config := .hourly }).runBy? punctual
      [.spawn 0 true, .refresh 1 false failing, .complete 1, .pass 7000, .resolve "k", .awaken 0 failing,
       .pass 13000] = some t := by cbv
  have ht : ReachableBy punctual .hourly t := (ReachableBy.start 0 rfl).run hrun
  have hmissed : t.Missed := ⟨7000, "k", List.mem_cons_self⟩
  have hcutoff : CacheConfig.hourly.fetchTimeout < CacheConfig.hourly.minRefreshInterval := by decide
  exact ⟨t, ht, hmissed, rfl, (miss_requested hmissed).2.1 hcutoff ht, rfl⟩

/-- A second between refreshes, a tenth of that between attempts, five seconds for one. -/
def CacheConfig.hasty : CacheConfig := ⟨"test://keys", .ofSeconds 1, 100, .ofSeconds 5⟩

/-- One loop fetches for half a second. The other one takes the wake-up of a miss, waits for the rate limit and is
turned away; nobody is late, and the request is gone. -/
theorem request_lost_to_slow_attempt :
    ∃ t, ReachableBy punctual .hasty t ∧ t.loops.length = 2 ∧ t.isQuiet = true ∧ t.Missed ∧
      t.cache.wake = false ∧ ∀ l ∈ t.loops, ∀ deadline, l.phase ≠ .woken deadline ∧ l.phase ≠ .held deadline := by
  let slow : Reply := ⟨500, .error (.network .connection)⟩
  let t : Timeline :=
    { now := 1100, origin := 0, cache := { config := .hasty, lastAttempt := some 1000, locked := true }, calls := [],
      loops := [⟨0, true, 0, .fetching ⟨1000, slow⟩, false⟩, ⟨1, true, 10, .idle 2100, false⟩],
      history :=
        [(1100, .answered (.loop 1) .inFlight), (1005, .missed "k"), (1000, .began (.loop 0) ⟨1000, slow⟩)] }
  have hrun : (Timeline.start 0 { config := .hasty }).runBy? punctual
      [.spawn 0 true, .pass 10, .spawn 1 true, .pass 990, .proceed 0 slow, .pass 5, .resolve "k", .awaken 1 slow,
       .pass 95, .proceed 1 slow] = some t := by cbv
  have ht : ReachableBy punctual .hasty t := (ReachableBy.start 0 rfl).run hrun
  have hquiet : t.isQuiet = true := by cbv
  refine ⟨t, ht, rfl, hquiet, ⟨1005, "k", ?_⟩, rfl, ?_⟩
  · exact List.mem_cons_of_mem _ List.mem_cons_self
  · intro l hl deadline
    rcases List.mem_cons.mp hl with rfl | hl
    · exact ⟨Phase.noConfusion, Phase.noConfusion⟩
    · obtain rfl := List.mem_singleton.mp hl
      exact ⟨Phase.noConfusion, Phase.noConfusion⟩

end DeviceTrust.KeySet
