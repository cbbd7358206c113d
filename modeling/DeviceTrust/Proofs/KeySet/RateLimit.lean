import DeviceTrust.Proofs.KeySet.Runs
import Mathlib

/-!
# The rate limit over whole runs

Attempts begin at least the configured interval apart, whoever makes them and whatever becomes
of them, because the shared state remembers when the latest one began and nothing sets that
back. The converse holds too: a request is put off only as long as it must be, and what it is
told is exactly how long that is.
-/

namespace DeviceTrust.KeySet

variable {config : CacheConfig} {t t' : Timeline} {actions : List Action}

/-- The moment of an occurrence that is the beginning of an attempt. -/
def startOf? : Nat × Occurrence → Option Nat
  | (moment, .began _ _) => some moment
  | _ => none

theorem starts_endings (f : Flight) (limit : Duration) (now : Nat) :
    ((f.endings limit).map fun o => (now, o)).filterMap startOf? = [] := by
  unfold Flight.endings
  cases f.attempt.reply.outcome limit with
  | ok keys => rfl
  | error e => cases f.reports <;> rfl

namespace Timeline

/-- The moments at which attempts began, latest first. -/
def starts (t : Timeline) : List Nat := t.history.filterMap startOf?

theorem starts_hand (t : Timeline) : t.hand.starts = t.starts := by
  rw [starts, (hand_frame t).2.2.1]
  rfl

/-- An effect begins an attempt, where the shared state lets it, or leaves the beginnings and what is
remembered of them as they are. -/
theorem Effect.starts_cases (h : t.Effect t') :
    (t'.starts = t.starts ∧ t'.cache.lastAttempt = t.cache.lastAttempt ∧
        (t.cache.locked = false → t'.cache.locked = false)) ∨
      (t.cache.remaining t.now = 0 ∧ t'.starts = t.now :: t.starts ∧ t'.cache.lastAttempt = some t.now) := by
  cases h with
  | began f hadmitted _ h =>
    obtain ⟨wake, hcache⟩ := h.cache_eq
    refine .inr ⟨(Cache.admission_eq_admitted.mp hadmitted).2, ?_, ?_⟩
    · rw [starts, h.history_eq]; rfl
    · rw [hcache]; rfl
  | ended f rest _ _ h =>
    obtain ⟨wake, hcache⟩ := h.cache_eq
    refine .inl ⟨?_, ?_, fun _ => ?_⟩
    · rw [starts, h.history_eq, List.filterMap_append, starts_endings]; rfl
    · rw [hcache]; exact Cache.finish_lastAttempt _ _ _
    · rw [hcache]; exact Cache.finish_locked _ _ _
  | abandoned f rest _ h =>
    obtain ⟨wake, hcache⟩ := h.cache_eq
    refine .inl ⟨?_, ?_, fun _ => ?_⟩
    · rw [starts, h.history_eq]; rfl
    · rw [hcache]; rfl
    · rw [hcache]; rfl
  | passed _ h | unconcerned h | missed _ h | refused _ _ h | delayed _ _ _ h =>
    obtain ⟨wake, hcache⟩ := h.cache_eq
    refine .inl ⟨?_, ?_, fun hlock => ?_⟩
    · rw [starts, h.history_eq]; rfl
    · rw [hcache]
    · rw [hcache]; exact hlock

/-- Attempts that began an interval apart, none of them after now, and the latest one remembered. -/
structure Spaced (interval : Nat) (t : Timeline) : Prop where
  interval_eq : t.cache.config.minRefreshInterval = interval
  remembered : t.cache.lastAttempt = t.starts.head?
  apart : t.starts.Pairwise fun later earlier => earlier + interval ≤ later
  past : ∀ s ∈ t.starts, s ≤ t.now

variable {interval : Nat}

/-- What is left of the rate limit is counted from the latest attempt. -/
theorem Spaced.remaining_eq (hs : t.Spaced interval) :
    t.cache.remaining t.now = (t.starts.head?.map fun s => s + interval - t.now).getD 0 := by
  rw [Cache.remaining, hs.remembered, hs.interval_eq]
  cases hstarts : t.starts with
  | nil => rfl
  | cons s rest =>
    have hpast := hs.past s (hstarts ▸ List.mem_cons_self)
    have hleft : interval - (t.now - s) = s + interval - t.now := by omega
    exact hleft

/-- The latest attempt alone decides whether some attempt began less than an interval ago. -/
theorem Spaced.exists_recent_iff (hs : t.Spaced interval) (now : Nat) :
    (∃ s ∈ t.starts, now < s + interval) ↔ ∃ s, t.starts.head? = some s ∧ now < s + interval := by
  have hapart := hs.apart
  cases hstarts : t.starts with
  | nil => simp
  | cons s rest =>
    rw [hstarts, List.pairwise_cons] at hapart
    constructor
    · rintro ⟨s', hmem, hrecent⟩
      refine ⟨s, rfl, ?_⟩
      rcases List.mem_cons.mp hmem with rfl | hmem
      · exact hrecent
      · have := hapart.1 s' hmem
        omega
    · rintro ⟨_, ⟨rfl⟩, hrecent⟩
      exact ⟨s, List.mem_cons_self, hrecent⟩

theorem Spaced.putsOff_iff (hs : t.Spaced interval) (hfree : t.cache.locked = false) {d : Nat} :
    t.PutsOff d ↔ ∃ s, t.starts.head? = some s ∧ t.now < s + interval ∧ t.now + d = s + interval := by
  rw [Timeline.putsOff_iff, hs.remaining_eq]
  cases t.starts.head? with
  | none =>
    simp only [Option.map_none, Option.getD_none, reduceCtorEq, false_and, exists_const, iff_false]
    exact fun h => h.2.2 h.2.1.symm
  | some s =>
    simp only [hfree, true_and, Option.some.injEq, exists_eq_left']
    constructor
    · rintro ⟨hd, hpos⟩
      have hleft : s + interval - t.now = d := hd
      have hpos : d ≠ 0 := hpos
      omega
    · rintro ⟨hrecent, hd⟩
      have hleft : s + interval - t.now = d := by omega
      have hpos : d ≠ 0 := by omega
      exact ⟨hleft, hpos⟩

theorem Spaced.bounds_of_putsOff (hs : t.Spaced interval) (hfree : t.cache.locked = false) {d : Nat}
    (h : t.PutsOff d) : 0 < d ∧ d ≤ interval := by
  obtain ⟨s, hlatest, hrecent, hend⟩ := (hs.putsOff_iff hfree).mp h
  have hpast := hs.past s (List.mem_of_mem_head? hlatest)
  omega

theorem Spaced.admits_iff (hs : t.Spaced interval) (hfree : t.cache.locked = false) :
    t.Admits ↔ ∀ s, t.starts.head? = some s → s + interval ≤ t.now := by
  rw [Timeline.admits_iff, hs.remaining_eq]
  cases t.starts.head? with
  | none => simp [hfree]
  | some s =>
    simp only [hfree, true_and, Option.some.injEq, forall_eq']
    exact Nat.sub_eq_zero_iff_le

/-- A beginning that the shared state lets through comes an interval after all others. -/
theorem Spaced.apart_of_remaining (hs : t.Spaced interval) (h : t.cache.remaining t.now = 0) :
    ∀ s ∈ t.starts, s + interval ≤ t.now := by
  intro s hmem
  by_contra hrecent
  obtain ⟨s', hs', hrecent⟩ := (hs.exists_recent_iff t.now).mp ⟨s, hmem, Nat.lt_of_not_le hrecent⟩
  rw [hs.remaining_eq, hs'] at h
  have hleft : s' + interval - t.now = 0 := h
  omega

theorem Spaced.effect (hs : t.Spaced interval) (h : t.Effect t') : t'.Spaced interval := by
  have hinterval : t'.cache.config.minRefreshInterval = interval := by rw [h.config_eq, hs.interval_eq]
  have hnow := h.now_le
  rcases h.starts_cases with ⟨hstarts, hlast, -⟩ | ⟨hremaining, hstarts, hlast⟩
  · refine ⟨hinterval, ?_, hstarts ▸ hs.apart, ?_⟩
    · rw [hlast, hstarts, hs.remembered]
    · rw [hstarts]
      exact fun s hmem => Nat.le_trans (hs.past s hmem) hnow
  · refine ⟨hinterval, ?_, ?_, ?_⟩
    · rw [hlast, hstarts, List.head?_cons]
    · rw [hstarts, List.pairwise_cons]
      exact ⟨hs.apart_of_remaining hremaining, hs.apart⟩
    · rw [hstarts, List.forall_mem_cons]
      exact ⟨hnow, fun s hmem => Nat.le_trans (hs.past s hmem) hnow⟩

end Timeline

theorem Reachable.spaced (ht : Reachable config t) : t.Spaced config.minRefreshInterval :=
  ht.invariant (fun _ => ⟨rfl, rfl, .nil, nofun⟩) fun _ _ _ hs h => hs.effect h

theorem Reachable.free_until_begun (ht : Reachable config t) (h : t.run? actions = some t')
    (hstarts : t'.starts = t.starts) (hfree : t.cache.locked = false) : t'.cache.locked = false := by
  -- beginnings are only ever added, so along the run there are at least as many as before
  let R (t t' : Timeline) : Prop := t.starts.length ≤ t'.starts.length ∧
    (t'.starts.length = t.starts.length → t.cache.locked = false → t'.cache.locked = false)
  have hrun : R t t' := by
    refine ht.along h ?_ ?_ ?_
    · exact fun t => ⟨Nat.le_refl _, fun _ => id⟩
    · rintro t₁ t₂ t₃ ⟨hle₁, hkeep₁⟩ ⟨hle₂, hkeep₂⟩
      refine ⟨Nat.le_trans hle₁ hle₂, fun hlength => ?_⟩
      exact hkeep₂ (by omega) ∘ hkeep₁ (by omega)
    · intro t t' _ h
      rcases h.starts_cases with ⟨hstarts, -, hkeep⟩ | ⟨-, hstarts, -⟩
      · exact ⟨Nat.le_of_eq (congrArg List.length hstarts.symm), fun _ => hkeep⟩
      · have hlonger : t'.starts.length = t.starts.length + 1 := congrArg List.length hstarts
        exact ⟨by omega, fun hlength => by omega⟩
  exact hrun.2 (by rw [hstarts]) hfree

/-- **The rate limit is exact.** Any two attempts begin an interval apart. A request that is not turned away is
put off exactly while some attempt began less than an interval ago, and it is told the time that is left:
until that has passed without another attempt, requests are put off for the rest of it, and then they are
admitted. -/
theorem rate_limit_exact (ht : Reachable config t) :
    t.starts.Pairwise (fun later earlier => earlier + config.minRefreshInterval ≤ later) ∧
    (¬ t.TurnsAway →
      ((∃ d, t.PutsOff d) ↔ ∃ s ∈ t.starts, t.now < s + config.minRefreshInterval) ∧
      ∀ d, t.PutsOff d → 0 < d ∧ d ≤ config.minRefreshInterval ∧
        (∃ s, t.starts.head? = some s ∧ t.now + d = s + config.minRefreshInterval) ∧
        ∀ actions t', t.run? actions = some t' → t'.starts = t.starts →
          if t'.now < t.now + d then t'.PutsOff (t.now + d - t'.now) else t'.Admits) := by
  have hs := ht.spaced
  refine ⟨hs.apart, fun hfree => ?_⟩
  have hlock : t.cache.locked = false := by simpa [Timeline.turnsAway_iff] using hfree
  constructor
  · rw [hs.exists_recent_iff]
    constructor
    · rintro ⟨d, hd⟩
      obtain ⟨s, hlatest, hrecent, -⟩ := (hs.putsOff_iff hlock).mp hd
      exact ⟨s, hlatest, hrecent⟩
    · rintro ⟨s, hlatest, hrecent⟩
      exact ⟨_, (hs.putsOff_iff hlock).mpr ⟨s, hlatest, hrecent, Nat.add_sub_cancel' (Nat.le_of_lt hrecent)⟩⟩
  · intro d hd
    obtain ⟨s, hlatest, hrecent, hend⟩ := (hs.putsOff_iff hlock).mp hd
    obtain ⟨hpos, hle⟩ := hs.bounds_of_putsOff hlock hd
    refine ⟨hpos, hle, ⟨s, hlatest, hend⟩, ?_⟩
    intro actions t' hrun hstarts
    have hs' := (ht.run hrun).spaced
    have hlock' := ht.free_until_begun hrun hstarts hlock
    have hlatest' : t'.starts.head? = some s := hstarts ▸ hlatest
    split
    · rename_i hbefore
      exact (hs'.putsOff_iff hlock').mpr ⟨s, hlatest', by omega, by omega⟩
    · rename_i hafter
      refine (hs'.admits_iff hlock').mpr fun s' hs' => ?_
      rw [hlatest'] at hs'
      cases hs'
      omega

/-- A caller's attempt fails at once. A loop wakes up, waits for the rate limit and has its attempt given up with
it. Twenty seconds after that attempt began, forty are left, whether or not another request is made. -/
theorem rate_limit_exact_across_failures :
    ∃ t, Reachable .hourly t ∧ t.starts = [60000, 0] ∧ t.now = 80000 ∧
      ∃ d, t.PutsOff d ∧ t.now + d = 60000 + CacheConfig.hourly.minRefreshInterval := by
  let failing : Reply := ⟨0, .error (.network .connection)⟩
  let slow : Reply := ⟨7, .ok .empty⟩
  let t : Timeline :=
    { now := 80000, origin := 0, cache := { config := .hourly, lastAttempt := some 60000 }, calls := [], loops := [],
      history :=
        [(60003, .abandoned (.loop 0)), (60000, .began (.loop 0) ⟨60000, slow⟩), (0, .missed "k"),
         (0, .answered (.caller 1) (.failed (.network .connection))), (0, .began (.caller 1) ⟨0, failing⟩)] }
  have hrun : (Timeline.start 0 { config := .hourly }).run?
      [.spawn 0 true, .refresh 1 false failing, .complete 1, .resolve "k", .awaken 0 slow, .pass 60000,
       .proceed 0 slow, .pass 3, .cancel 0, .drop 0, .pass 19997] = some t := by cbv
  have ht : Reachable .hourly t := (Reachable.start_hourly 0).run hrun
  have hfree : ¬ t.TurnsAway := fun h => Bool.false_ne_true (Timeline.turnsAway_iff.mp h)
  obtain ⟨hiff, hexact⟩ := (rate_limit_exact ht).2 hfree
  obtain ⟨d, hd⟩ := hiff.mpr ⟨60000, List.mem_cons_self, by decide⟩
  obtain ⟨-, -, ⟨s, hlatest, hend⟩, -⟩ := hexact d hd
  cases hlatest
  exact ⟨t, ht, rfl, rfl, d, hd, hend⟩

end DeviceTrust.KeySet
