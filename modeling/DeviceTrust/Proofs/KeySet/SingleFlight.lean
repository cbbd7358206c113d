import DeviceTrust.Proofs.KeySet.Timing

/-!
# One attempt at a time

However many callers and loops there are, at most one of them waits for an attempt, and the lock
of the shared state is held exactly then. Others are turned away at once and leave no trace but
the answer.

The attempt of a cancelled loop is under way until the task of the loop is dropped, so whoever asks in between
is still turned away. That is over before any time passes, unless somebody is late: the task is not run again, it is
dropped, and the lock goes with the attempt. After that nobody is turned away because of the loop.
-/

namespace DeviceTrust.KeySet

variable {config : CacheConfig} {t t' : Timeline} {l : Loop} {a : Attempt} {id : Nat} {reply : Reply}
  {action : Action} {actions : List Action}

namespace Timeline

theorem Single.locked_iff (hs : t.Single) : t.cache.locked = true ↔ t.flights ≠ [] := by
  cases hs with
  | idle hlock hflights _ => simp [hlock, hflights]
  | busy f past hlock hflights _ _ => simp [hlock, hflights]

/-- A request is turned away by the one attempt that is under way, which is the latest of the ledger. -/
theorem Single.turnsAway_iff (hs : t.Single) :
    t.TurnsAway ↔ ∃ f, t.flights = [f] ∧ t.ledger.head? = some ⟨f.who, f.attempt, .underway⟩ := by
  rw [Timeline.turnsAway_iff]
  cases hs with
  | idle hlock hflights _ => simp [hlock, hflights]
  | busy f past hlock hflights hledger _ =>
    rw [hledger]
    exact ⟨fun _ => ⟨f, hflights, rfl⟩, fun _ => hlock⟩

theorem exists_loop_of_flight {f : Flight} (hf : f ∈ t.flights) (hwho : f.who = .loop id) :
    ∃ l ∈ t.loops, l.id = id ∧ l.flight? = some f := by
  rcases List.mem_append.mp hf with hf | hf
  · obtain ⟨c, -, rfl⟩ := List.mem_map.mp hf
    cases hwho
  · obtain ⟨l, hl, hflight⟩ := List.mem_filterMap.mp hf
    refine ⟨l, hl, ?_, hflight⟩
    unfold Loop.flight? at hflight
    split at hflight
    · cases hflight
      exact Actor.loop.inj hwho
    · cases hflight

/-- A loop was cancelled in the middle of its attempt, and its task has yet to be dropped. -/
structure Doomed (t : Timeline) (l : Loop) (a : Attempt) : Prop where
  mem : l ∈ t.loops
  cancelled : l.cancelled = true
  phase_eq : l.phase = .fetching a

theorem Doomed.flights_perm (hdoomed : t.Doomed l a) (hd : t.Distinct) :
    t.flights.Perm (⟨.loop l.id, l.reports, a⟩ :: t.otherFlights l) := by
  have hflights := flights_perm_of_loop hd hdoomed.mem
  rwa [Loop.flight?_of_fetching hdoomed.phase_eq] at hflights

/-- The task takes its attempt with it, and the lock. -/
theorem Doomed.drop (hdoomed : t.Doomed l a) (hd : t.Distinct) (hs : t.Single) (hh : t.Handed) :
    ∃ t', t.step? (.drop l.id) = some t' ∧ t'.now = t.now ∧ t'.cache = { t.cache with locked := false } ∧
      t'.flights = [] ∧ t'.loop? l.id = none ∧ t'.ledger.head? = some ⟨.loop l.id, a, .abandoned⟩ := by
  obtain ⟨hothers, past, hledger, -⟩ := hs.of_flights (hdoomed.flights_perm hd)
  let others : Timeline := { t with loops := t.loops.filter (·.id != l.id), cache := t.cache.abandon }
  have hback : t.giveBack l = t := by
    have hwoken : l.isWoken = false := by rw [Loop.isWoken, hdoomed.phase_eq]
    rw [giveBack, hwoken, Bool.or_false]
  have hact : t.act? (.drop l.id) = some (others.note (.abandoned (.loop l.id))) := by
    simp only [act?, loop?_of_mem hd hdoomed.mem, hdoomed.cancelled, if_true, hback, hdoomed.phase_eq, others]
  have hhanded : (others.note (.abandoned (.loop l.id))).Handed :=
    fun hwake k hk => hh hwake k (List.mem_of_mem_filter hk)
  have hstep : t.step? (.drop l.id) = some (others.note (.abandoned (.loop l.id))) := by
    rw [step_of_act hact, hand_eq_self hhanded]
  refine ⟨_, hstep, rfl, rfl, hothers, ?_, ?_⟩
  · exact List.find?_eq_none.mpr fun k hk => by simpa using (List.mem_filter.mp hk).2
  · have hsettled := settle_head ⟨.loop l.id, l.reports, a⟩ .abandoned past
    rw [ledger, note, ledgerOf]
    change (settle _ _ t.ledger).head? = _
    rw [hledger, hsettled]
    rfl

end Timeline

end DeviceTrust.KeySet
