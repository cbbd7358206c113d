import DeviceTrust.Proofs.KeySet.Ledger

/-!
# What a cache has published

The keys of a cache are those of the latest attempt that brought any, and it never goes back to
having none. Since one attempt is over before the next begins, the latest to bring keys is the
latest to have begun, so a slow attempt cannot put old keys in the place of new ones.
-/

namespace DeviceTrust.KeySet

variable {config : CacheConfig} {t t' : Timeline} {limit : Duration} {actions : List Action}

/-- The keys that an attempt brought, and when: it came to its end, the source had answered within the limit, and
the set it answered with was not empty. -/
def Entry.delivery? (limit : Duration) (e : Entry) : Option (KeySet × Nat) :=
  match e.fate, e.attempt.reply.result with
  | .over moment, .ok keys =>
    if e.attempt.reply.delay ≤ limit ∧ keys.isEmpty = false then some (keys, moment) else none
  | _, _ => none

theorem Entry.delivery?_over (who : Actor) (a : Attempt) (moment : Nat) :
    Entry.delivery? limit ⟨who, a, .over moment⟩ =
      (a.reply.outcome limit).toOption.map fun keys => (keys, moment) := by
  simp only [delivery?, Reply.outcome]
  by_cases hlate : limit < a.reply.delay
  · rw [if_pos hlate]
    cases a.reply.result with
    | error e => rfl
    | ok keys => exact if_neg fun h => Nat.not_le.mpr hlate h.1
  · rw [if_neg hlate]
    cases a.reply.result with
    | error e => rfl
    | ok keys =>
      cases hempty : keys.isEmpty with
      | true => simp [hempty, Except.toOption]
      | false => simp [hempty, Nat.not_lt.mp hlate, Except.toOption]

theorem Entry.isEmpty_of_delivery? {e : Entry} {keys : KeySet} {moment : Nat}
    (h : e.delivery? limit = some (keys, moment)) : keys.isEmpty = false := by
  unfold delivery? at h
  split at h
  · split at h
    · rename_i hin
      cases h
      exact hin.2
    · cases h
  · cases h

namespace Timeline

/-- What the latest attempt that brought any keys brought. -/
def delivery? (t : Timeline) : Option (KeySet × Nat) :=
  t.ledger.findSome? (Entry.delivery? t.cache.config.fetchTimeout)

theorem isEmpty_of_delivery? {keys : KeySet} {moment : Nat} (h : t.delivery? = some (keys, moment)) :
    keys.isEmpty = false := by
  obtain ⟨e, -, he⟩ := List.exists_of_findSome?_eq_some h
  exact Entry.isEmpty_of_delivery? he

/-- The published keys and their time are those of the latest delivery. -/
structure Published (t : Timeline) : Prop where
  keys_eq : t.cache.keys = (t.delivery?.map Prod.fst).getD .empty
  lastRefreshed_eq : t.cache.lastRefreshed = t.delivery?.map fun d => t.origin + d.2

/-- What every effect but the end of an attempt leaves as it is. -/
structure Unpublished (t t' : Timeline) : Prop where
  delivery_eq : t'.delivery? = t.delivery?
  origin_eq : t'.origin = t.origin
  keys_eq : t'.cache.keys = t.cache.keys
  lastRefreshed_eq : t'.cache.lastRefreshed = t.cache.lastRefreshed

structure Publishes (t t' : Timeline) (keys : KeySet) : Prop where
  brought : ∃ f ∈ t.flights, f.attempt.reply.outcome t.cache.config.fetchTimeout = .ok keys
  noted : ∃ who, t'.history = (t.now, .answered who (.refreshed keys.size)) :: t.history
  delivery_eq : t'.delivery? = some (keys, t.now)
  origin_eq : t'.origin = t.origin
  keys_eq : t'.cache.keys = keys
  lastRefreshed_eq : t'.cache.lastRefreshed = some t.wall

theorem delivery?_eq (hconfig : t'.cache.config = t.cache.config) :
    t'.delivery? = t'.ledger.findSome? (Entry.delivery? t.cache.config.fetchTimeout) := by
  rw [delivery?, hconfig]

/-- **Only an attempt that brings keys publishes any.** -/
theorem Effect.publication_cases (hs : t.Single) (h : t.Effect t') :
    t.Unpublished t' ∨ ∃ keys, t.Publishes t' keys := by
  have hdelivery := delivery?_eq h.config_eq
  cases h with
  | began f _ _ h =>
    obtain ⟨wake, hcache⟩ := h.cache_eq
    have hledger : t'.ledger = ⟨f.who, f.attempt, .underway⟩ :: t.ledger := by rw [ledger, h.history_eq]; rfl
    refine .inl ⟨?_, h.origin_eq, by rw [hcache]; rfl, by rw [hcache]; rfl⟩
    rw [hdelivery, hledger]
    rfl
  | ended f rest hflights _ h =>
    obtain ⟨-, past, hledger, -⟩ := hs.of_flights hflights
    obtain ⟨wake, hcache⟩ := h.cache_eq
    have hledger' : t'.ledger = ⟨f.who, f.attempt, .over t.now⟩ :: past := by
      rw [ledger, h.history_eq, ledgerOf_endings, show ledgerOf t.history = _ from hledger, settle_head]
    -- this attempt is the latest to have begun: what it brings is found first, before all that came earlier
    rw [hledger', List.findSome?_cons, Entry.delivery?_over] at hdelivery
    cases houtcome : f.attempt.reply.outcome t.cache.config.fetchTimeout with
    | ok keys =>
      rw [houtcome] at hcache hdelivery
      refine .inr ⟨keys, ⟨f, hflights.mem_iff.mpr List.mem_cons_self, houtcome⟩, ⟨f.who, ?_⟩, hdelivery, h.origin_eq,
        by rw [hcache]; rfl, by rw [hcache]; rfl⟩
      rw [h.history_eq, Flight.endings, houtcome]
      rfl
    | error e =>
      rw [houtcome] at hcache hdelivery
      refine .inl ⟨?_, h.origin_eq, by rw [hcache]; rfl, by rw [hcache]; rfl⟩
      rw [hdelivery, delivery?, hledger]
      rfl
  | abandoned f rest hflights h =>
    obtain ⟨-, past, hledger, -⟩ := hs.of_flights hflights
    obtain ⟨wake, hcache⟩ := h.cache_eq
    have hledger' : t'.ledger = ⟨f.who, f.attempt, .abandoned⟩ :: past := by
      rw [ledger, h.history_eq, ledgerOf, show ledgerOf t.history = _ from hledger, settle_head]
    refine .inl ⟨?_, h.origin_eq, by rw [hcache]; rfl, by rw [hcache]; rfl⟩
    rw [hdelivery, hledger', delivery?, hledger]
    rfl
  | passed _ h | unconcerned h | missed _ h | refused _ _ h | delayed _ _ _ h =>
    obtain ⟨wake, hcache⟩ := h.cache_eq
    have hledger : t'.ledger = t.ledger := by rw [ledger, h.history_eq]; rfl
    refine .inl ⟨?_, h.origin_eq, by rw [hcache], by rw [hcache]⟩
    rw [hdelivery, hledger]
    rfl

theorem Published.effect (hs : t.Single) (hp : t.Published) (h : t.Effect t') : t'.Published := by
  rcases h.publication_cases hs with hsame | ⟨keys, hnew⟩
  · refine ⟨?_, ?_⟩
    · rw [hsame.keys_eq, hsame.delivery_eq, hp.keys_eq]
    · rw [hsame.lastRefreshed_eq, hsame.delivery_eq, hsame.origin_eq, hp.lastRefreshed_eq]
  · refine ⟨?_, ?_⟩
    · rw [hnew.keys_eq, hnew.delivery_eq]; rfl
    · rw [hnew.lastRefreshed_eq, hnew.delivery_eq, hnew.origin_eq]; rfl

end Timeline

theorem Reachable.published (ht : Reachable config t) : t.Published :=
  ht.invariant (fun _ => ⟨rfl, rfl⟩) fun _ _ ht hp h => hp.effect ht.single h

theorem Reachable.keys_kept (ht : Reachable config t) (h : t.run? actions = some t')
    (hkeys : t.cache.keys.isEmpty = false) : t'.cache.keys.isEmpty = false := by
  let R (t t' : Timeline) : Prop := t.cache.keys.isEmpty = false → t'.cache.keys.isEmpty = false
  have hrun : R t t' := by
    refine ht.along h (fun _ => id) (fun _ _ _ h₁ h₂ => h₂ ∘ h₁) ?_
    intro t t' ht h hkeys
    rcases h.publication_cases ht.single with hsame | ⟨keys, hnew⟩
    · rw [hsame.keys_eq, hkeys]
    · rw [hnew.keys_eq]
      exact Timeline.isEmpty_of_delivery? hnew.delivery_eq
  exact hrun hkeys

/-- The keys of a cache are empty exactly as long as no time of publication is known. -/
theorem Reachable.isEmpty_iff (ht : Reachable config t) :
    t.cache.keys.isEmpty = true ↔ t.cache.lastRefreshed = none := by
  obtain ⟨hkeys, hlast⟩ := ht.published
  rw [hkeys, hlast]
  cases hdelivery : t.delivery? with
  | none => exact ⟨fun _ => rfl, fun _ => rfl⟩
  | some d =>
    have hnonempty : d.1.isEmpty = false := Timeline.isEmpty_of_delivery? hdelivery
    simp [hnonempty]

/-- **Keys are never lost.** In every reachable timeline the published keys are those of the latest attempt that
brought any in time, published when that attempt was over, and they are empty only if none did. Every action
leaves keys and time as they are, except for the end of an attempt that is answered as refreshed; from the
first of those on the cache has keys. Lookups and the list of identifiers answer from these keys alone. -/
theorem keys_never_lost (ht : Reachable config t) :
    (t.cache.keys = (t.delivery?.map Prod.fst).getD .empty ∧
      t.cache.lastRefreshed = t.delivery?.map (fun d => t.origin + d.2) ∧
      (t.cache.keys.isEmpty = true ↔ t.cache.lastRefreshed = none)) ∧
    (∀ action t', t.step? action = some t' →
      (t'.cache.keys = t.cache.keys ∧ t'.cache.lastRefreshed = t.cache.lastRefreshed ∧ t'.delivery? = t.delivery?) ∨
      ∃ keys who, t'.history = (t.now, .answered who (.refreshed keys.size)) :: t.history ∧
        (∃ f ∈ t.flights, f.attempt.reply.outcome config.fetchTimeout = .ok keys) ∧
        t'.cache.keys = keys ∧ t'.cache.lastRefreshed = some t.wall ∧ t'.delivery? = some (keys, t.now)) ∧
    (t.cache.keys.isEmpty = false → ∀ actions t', t.run? actions = some t' → t'.cache.keys.isEmpty = false) ∧
    (∀ kid, (t.cache.resolve kid).1 = ((t.delivery?.map Prod.fst).getD .empty).get? kid) ∧
    t.cache.keys.kids = ((t.delivery?.map Prod.fst).getD .empty).kids := by
  have hpublished := ht.published
  refine ⟨⟨hpublished.keys_eq, hpublished.lastRefreshed_eq, ht.isEmpty_iff⟩, ?_, ?_, ?_, ?_⟩
  · intro action t' hstep
    rcases (ht.effect hstep).publication_cases ht.single with hsame | ⟨keys, hnew⟩
    · exact .inl ⟨hsame.keys_eq, hsame.lastRefreshed_eq, hsame.delivery_eq⟩
    · obtain ⟨who, hnoted⟩ := hnew.noted
      have hbrought := ht.config_eq ▸ hnew.brought
      exact .inr ⟨keys, who, hnoted, hbrought, hnew.keys_eq, hnew.lastRefreshed_eq, hnew.delivery_eq⟩
  · exact fun hkeys actions t' hrun => ht.keys_kept hrun hkeys
  · intro kid
    rw [← hpublished.keys_eq, Cache.resolve]
    cases t.cache.keys.get? kid <;> rfl
  · rw [hpublished.keys_eq]

/-- A caller's attempt brings a key, and a later one fails: the key is still there, and the next hour keeps it. -/
theorem keys_never_lost_after_failure :
    ∃ t, Reachable .hourly t ∧ t.now = 60003 ∧ t.cache.keys.kids = ["k"] ∧ t.cache.lastRefreshed = some 1003 ∧
      ∀ t', t.run? [.pass 3600000, .resolve "other"] = some t' → t'.cache.keys.isEmpty = false := by
  let key : VerificationKey := .secret [0x2a]
  let keys : KeySet := ⟨[("k", key)]⟩
  let good : Reply := ⟨3, .ok keys⟩
  let failing : Reply := ⟨0, .error (.network .connection)⟩
  let t : Timeline :=
    { now := 60003, origin := 1000, calls := [], loops := [],
      cache := { config := .hourly, keys, lastAttempt := some 60003, lastRefreshed := some 1003 },
      history :=
        [(60003, .answered (.caller 2) (.failed (.network .connection))), (60003, .began (.caller 2) ⟨60003, failing⟩),
         (3, .answered (.caller 1) (.refreshed 1)), (0, .began (.caller 1) ⟨0, good⟩)] }
  have hrun : (Timeline.start 1000 { config := .hourly }).run?
      [.refresh 1 true good, .pass 3, .complete 1, .pass 60000, .refresh 2 false failing, .complete 2] = some t := by
    cbv
  have ht : Reachable .hourly t := (Reachable.start_hourly 1000).run hrun
  obtain ⟨⟨-, hlast, -⟩, -, hkept, -, hkids⟩ := keys_never_lost ht
  have hdelivery : t.delivery? = some (keys, 3) := rfl
  rw [hdelivery] at hlast hkids
  exact ⟨t, ht, rfl, hkids, hlast, hkept rfl _⟩

end DeviceTrust.KeySet
