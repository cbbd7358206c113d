import DeviceTrust.Proofs.KeySet.Runs

/-!
# The ledger of a run

The history of a timeline tells when attempts began and who was answered what. Read as a ledger
it lists the attempts in the order in which they began, each with what has become of it. Every
reachable timeline keeps one ledger: at most its latest attempt is still under way, that is the
attempt somebody waits for, and the lock says whether there is one. This holds whatever the
order of the actions, and however late they come.
-/

namespace DeviceTrust.KeySet

variable {config : CacheConfig} {t t' : Timeline}

inductive Fate where
  | underway
  /-- Over since a moment. -/
  | over (moment : Nat)
  | abandoned
  deriving DecidableEq

structure Entry where
  who : Actor
  attempt : Attempt
  fate : Fate

def Outcome.endsAttempt : Outcome → Bool
  | .refreshed _ | .failed _ => true
  | .inFlight | .rateLimited _ => false

/-- Writes down the fate of the attempt that somebody has under way. -/
def settle (who : Actor) (fate : Fate) : List Entry → List Entry
  | [] => []
  | e :: es => if e.who = who ∧ e.fate = .underway then { e with fate } :: es else e :: settle who fate es

/-- The attempts that a history tells of, the one that began last in front. -/
def ledgerOf : List (Nat × Occurrence) → List Entry
  | [] => []
  | (_, .began who attempt) :: past => ⟨who, attempt, .underway⟩ :: ledgerOf past
  | (moment, .answered who outcome) :: past =>
    if outcome.endsAttempt then settle who (.over moment) (ledgerOf past) else ledgerOf past
  | (_, .abandoned who) :: past => settle who .abandoned (ledgerOf past)
  | (_, .reported _ _) :: past => ledgerOf past
  | (_, .missed _) :: past => ledgerOf past

/-- The attempts of a timeline, the one that began last in front. -/
def Timeline.ledger (t : Timeline) : List Entry := ledgerOf t.history

theorem settle_head (f : Flight) (fate : Fate) (past : List Entry) :
    settle f.who fate (⟨f.who, f.attempt, .underway⟩ :: past) = ⟨f.who, f.attempt, fate⟩ :: past :=
  if_pos ⟨rfl, rfl⟩

theorem ledgerOf_endings (f : Flight) (limit : Duration) (now : Nat) (past : List (Nat × Occurrence)) :
    ledgerOf ((f.endings limit).map (fun o => (now, o)) ++ past) = settle f.who (.over now) (ledgerOf past) := by
  unfold Flight.endings
  cases f.attempt.reply.outcome limit with
  | ok keys => rfl
  | error e => cases f.reports <;> rfl

namespace Timeline

/-- Either nobody waits for an attempt, or the latest attempt is the one that somebody waits for; all others
are settled, and the lock is held in the second case. -/
inductive Single (t : Timeline) : Prop where
  | idle (hlock : t.cache.locked = false) (hflights : t.flights = [])
      (hledger : ∀ e ∈ t.ledger, e.fate ≠ .underway)
  | busy (f : Flight) (past : List Entry) (hlock : t.cache.locked = true) (hflights : t.flights = [f])
      (hledger : t.ledger = ⟨f.who, f.attempt, .underway⟩ :: past) (hpast : ∀ e ∈ past, e.fate ≠ .underway)

/-- Where neither the lock nor the attempts change, nothing changes here. -/
theorem Single.frame {now : Nat} {cache : Cache} {flights : List Flight} {history : List (Nat × Occurrence)}
    (hs : t.Single) (h : t.Becomes now cache flights history t') (hcache : cache.locked = t.cache.locked)
    (hflights : flights = t.flights) (hledger : ledgerOf history = t.ledger) : t'.Single := by
  obtain ⟨wake, hcache'⟩ := h.cache_eq
  have hlock' : t'.cache.locked = t.cache.locked := by rw [hcache']; exact hcache
  have hperm : t'.flights.Perm t.flights := hflights ▸ h.flights_perm
  have hledger' : t'.ledger = t.ledger := by rw [ledger, h.history_eq, hledger]
  cases hs with
  | idle hlock hflights hledger =>
    exact .idle (hlock'.trans hlock) (List.perm_nil.mp (hflights ▸ hperm)) (hledger' ▸ hledger)
  | busy f past hlock hflights hledger hpast =>
    exact .busy f past (hlock'.trans hlock) (List.perm_singleton.mp (hflights ▸ hperm)) (hledger'.trans hledger)
      hpast

/-- Whoever's attempt is among those under way, it is the only one and the latest of the ledger. -/
theorem Single.of_flights {f : Flight} {rest : List Flight} (hs : t.Single) (h : t.flights.Perm (f :: rest)) :
    rest = [] ∧ ∃ past, t.ledger = ⟨f.who, f.attempt, .underway⟩ :: past ∧ ∀ e ∈ past, e.fate ≠ .underway := by
  cases hs with
  | idle _ hflights _ =>
    rw [hflights] at h
    cases List.nil_perm.mp h
  | busy f' past _ hflights hledger hpast =>
    rw [hflights] at h
    cases List.singleton_perm.mp h
    exact ⟨rfl, past, hledger, hpast⟩

theorem Single.of_unlocked (hs : t.Single) (h : t.cache.locked = false) :
    t.flights = [] ∧ ∀ e ∈ t.ledger, e.fate ≠ .underway := by
  cases hs with
  | idle _ hflights hledger => exact ⟨hflights, hledger⟩
  | busy f past hlock _ _ _ =>
    rw [h] at hlock
    cases hlock

theorem Single.effect (hs : t.Single) (h : t.Effect t') : t'.Single := by
  cases h with
  | passed _ h | unconcerned h | missed _ h | refused _ _ h | delayed _ _ _ h => exact hs.frame h rfl rfl rfl
  | began f hadmitted _ h =>
    obtain ⟨hflights, hledger⟩ := hs.of_unlocked (Cache.admission_eq_admitted.mp hadmitted).1
    obtain ⟨wake, hcache⟩ := h.cache_eq
    have hperm := h.flights_perm
    rw [hflights] at hperm
    refine .busy f t.ledger ?_ (List.perm_singleton.mp hperm) ?_ hledger
    · rw [hcache]; rfl
    · rw [ledger, h.history_eq]; rfl
  | ended f rest hflights _ h =>
    -- the attempt that ends is the only one under way, so it is the first of the ledger that is settled
    obtain ⟨rfl, past, hledger, hpast⟩ := hs.of_flights hflights
    obtain ⟨wake, hcache⟩ := h.cache_eq
    refine .idle ?_ (List.perm_nil.mp h.flights_perm) ?_
    · rw [hcache]
      exact Cache.finish_locked _ _ _
    · rw [ledger, h.history_eq, ledgerOf_endings, show ledgerOf t.history = _ from hledger, settle_head]
      exact List.forall_mem_cons.mpr ⟨nofun, hpast⟩
  | abandoned f rest hflights h =>
    obtain ⟨rfl, past, hledger, hpast⟩ := hs.of_flights hflights
    obtain ⟨wake, hcache⟩ := h.cache_eq
    refine .idle ?_ (List.perm_nil.mp h.flights_perm) ?_
    · rw [hcache]; rfl
    · rw [ledger, h.history_eq, ledgerOf, show ledgerOf t.history = _ from hledger, settle_head]
      exact List.forall_mem_cons.mpr ⟨nofun, hpast⟩

end Timeline

/-- **At most one attempt is under way**, in every reachable timeline. -/
theorem Reachable.single (ht : Reachable config t) : t.Single :=
  ht.invariant (fun _ => .idle rfl rfl nofun) fun _ _ _ hs h => hs.effect h

end DeviceTrust.KeySet
