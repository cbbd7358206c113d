import DeviceTrust.KeySet.Timeline

/-!
# What an action comes to

`Move` has one case for each thing that an action may come to: what must hold for it, and the timeline after
it. An action that may happen comes to one of them, and then a stored wake-up is handed to a loop that waits for
one, so nothing else need look into `step?`.
-/

namespace DeviceTrust.KeySet.Timeline

/-- What an action may come to, before a stored wake-up is handed to a loop. -/
inductive Move (t : Timeline) : Action → Timeline → Prop where
  | refused {id : Nat} {reports : Bool} {reply : Reply} (hnew : ∀ c ∈ t.calls, c.id ≠ id)
    (hbusy : t.cache.admission t.now = .inFlight) :
    Move t (.refresh id reports reply) (t.note (.answered (.caller id) .inFlight))
  | delayed {id : Nat} {reports : Bool} {reply : Reply} {d : Duration} (hnew : ∀ c ∈ t.calls, c.id ≠ id)
    (hlimited : t.cache.admission t.now = .rateLimited d) :
    Move t (.refresh id reports reply) (t.note (.answered (.caller id) (.rateLimited d)))
  | began {id : Nat} {reports : Bool} {reply : Reply} (hnew : ∀ c ∈ t.calls, c.id ≠ id)
    (hadmitted : t.cache.admission t.now = .admitted) :
    Move t (.refresh id reports reply)
      { ({ t with cache := t.cache.begin t.now }).note (.began (.caller id) ⟨t.now, reply⟩) with
        calls := t.calls ++ [⟨id, reports, ⟨t.now, reply⟩⟩] }
  | completed {c : Call} (hc : t.call? c.id = some c) (hdue : t.due c.attempt ≤ t.now) :
    Move t (.complete c.id)
      (({ t with calls := t.calls.filter (·.id != c.id) }).conclude (.caller c.id) c.reports c.attempt)
  | withdrawn {c : Call} (hc : t.call? c.id = some c) :
    Move t (.withdraw c.id)
      (({ t with calls := t.calls.filter (·.id != c.id), cache := t.cache.abandon }).note
        (.abandoned (.caller c.id)))
  /-- A loop whose attempt is over rests. -/
  | rested {l : Loop} {reply : Reply} {a : Attempt} (hl : t.loop? l.id = some l) (hlive : l.cancelled = false)
    (hphase : l.phase = .fetching a) (hdue : t.due a ≤ t.now) :
    Move t (.proceed l.id reply) ((t.conclude (.loop l.id) l.reports a).rest l)
  | cycled {l : Loop} {reply : Reply} (hl : t.loop? l.id = some l) (hlive : l.cancelled = false)
    (hphase : ∀ a, l.phase ≠ .fetching a) (hdue : t.deadline l ≤ t.now) :
    Move t (.proceed l.id reply) ((t.giveBack l).cycle l reply)
  | awoken {l : Loop} {reply : Reply} (hl : t.loop? l.id = some l) (hawaken : l.canAwaken = true) :
    Move t (.awaken l.id reply) (t.takeWake l reply)
  | found {kid : String} {key : VerificationKey} (hkey : t.cache.keys.get? kid = some key) :
    Move t (.resolve kid) t
  | missed {kid : String} (hkey : t.cache.keys.get? kid = none) :
    Move t (.resolve kid) (({ t with cache := { t.cache with wake := true } }).note (.missed kid))
  | spawned {id : Nat} {reports : Bool} (hnew : ∀ l ∈ t.loops, l.id ≠ id) :
    Move t (.spawn id reports)
      { t with
        loops := t.loops ++ [⟨id, reports, t.now, .idle (t.now + t.cache.config.refreshInterval), false⟩] }
  | cancelled {l : Loop} (hl : t.loop? l.id = some l) :
    Move t (.cancel l.id) (t.adjust l.id fun l => { l with cancelled := true })
  /-- The task of a loop is dropped in the middle of its attempt. -/
  | abandoned {l : Loop} {a : Attempt} (hl : t.loop? l.id = some l) (hcancelled : l.cancelled = true)
    (hphase : l.phase = .fetching a) :
    Move t (.drop l.id)
      (({ t with loops := t.loops.filter (·.id != l.id), cache := (t.giveBack l).cache.abandon }).note
        (.abandoned (.loop l.id)))
  | dropped {l : Loop} (hl : t.loop? l.id = some l) (hcancelled : l.cancelled = true)
    (hphase : ∀ a, l.phase ≠ .fetching a) :
    Move t (.drop l.id) { t.giveBack l with loops := t.loops.filter (·.id != l.id) }
  | passed {d : Duration} : Move t (.pass d) { t with now := t.now + d }

variable {t t' : Timeline} {c : Call} {l : Loop} {id : Nat} {reply : Reply} {who : Actor} {action : Action}

theorem of_loop? (h : t.loop? id = some l) : l ∈ t.loops ∧ l.id = id :=
  ⟨List.mem_of_find?_eq_some h, by simpa using List.find?_some h⟩

theorem of_call? (h : t.call? id = some c) : c ∈ t.calls ∧ c.id = id :=
  ⟨List.mem_of_find?_eq_some h, by simpa using List.find?_some h⟩

theorem request_inFlight (h : t.cache.admission t.now = .inFlight) :
    t.request who reply = (t.note (.answered who .inFlight), none) := by
  simp only [request, h]

theorem request_rateLimited {d : Duration} (h : t.cache.admission t.now = .rateLimited d) :
    t.request who reply = (t.note (.answered who (.rateLimited d)), none) := by
  simp only [request, h]

theorem request_admitted (h : t.cache.admission t.now = .admitted) :
    t.request who reply =
      (({ t with cache := t.cache.begin t.now }).note (.began who ⟨t.now, reply⟩), some ⟨t.now, reply⟩) := by
  simp only [request, h]

theorem move_of_act (h : t.act? action = some t') : t.Move action t' := by
  cases action with
  | refresh id reports reply =>
    simp only [act?] at h
    split at h
    · cases h
    · rename_i hfree
      have hnew : ∀ c ∈ t.calls, c.id ≠ id := by
        intro c hc hid
        exact hfree (List.find?_isSome.mpr ⟨c, hc, beq_iff_eq.mpr hid⟩)
      cases hadmission : t.cache.admission t.now with
      | inFlight =>
        rw [request_inFlight hadmission] at h
        cases h
        exact .refused hnew hadmission
      | rateLimited d =>
        rw [request_rateLimited hadmission] at h
        cases h
        exact .delayed hnew hadmission
      | admitted =>
        rw [request_admitted hadmission] at h
        cases h
        exact .began hnew hadmission
  | complete id =>
    simp only [act?] at h
    split at h
    · cases h
    · rename_i c hc
      obtain ⟨-, rfl⟩ := of_call? hc
      split at h
      · cases h
      · rename_i hdue
        cases h
        exact .completed hc (Nat.not_lt.mp hdue)
  | withdraw id =>
    simp only [act?] at h
    split at h
    · cases h
    · rename_i c hc
      obtain ⟨-, rfl⟩ := of_call? hc
      cases h
      exact .withdrawn hc
  | proceed id reply =>
    simp only [act?] at h
    split at h
    · cases h
    · rename_i l hl
      obtain ⟨-, rfl⟩ := of_loop? hl
      split at h
      · cases h
      · rename_i hturn
        simp only [Bool.or_eq_true, decide_eq_true_eq, not_or, Bool.not_eq_true, Nat.not_lt] at hturn
        obtain ⟨hlive, hdue⟩ := hturn
        split at h
        · rename_i a hphase
          cases h
          refine .rested hl hlive hphase ?_
          simpa only [deadline, hphase] using hdue
        · rename_i hphase
          cases h
          exact .cycled hl hlive hphase hdue
  | awaken id reply =>
    simp only [act?] at h
    split at h
    · cases h
    · rename_i l hl
      obtain ⟨-, rfl⟩ := of_loop? hl
      split at h
      · rename_i hawaken
        cases h
        exact .awoken hl hawaken
      · cases h
  | resolve kid =>
    simp only [act?, Cache.resolve] at h
    cases hkey : t.cache.keys.get? kid with
    | some key =>
      simp only [hkey, Option.isSome_some, if_true] at h
      cases h
      exact .found hkey
    | none =>
      simp only [hkey, Option.isSome_none, Bool.false_eq_true, if_false] at h
      cases h
      exact .missed hkey
  | spawn id reports =>
    simp only [act?] at h
    split at h
    · cases h
    · rename_i hfree
      cases h
      refine .spawned fun l hl hid => hfree ?_
      exact List.find?_isSome.mpr ⟨l, hl, beq_iff_eq.mpr hid⟩
  | cancel id =>
    simp only [act?] at h
    split at h
    · cases h
    · rename_i l hl
      obtain ⟨-, rfl⟩ := of_loop? hl
      cases h
      exact .cancelled hl
  | drop id =>
    simp only [act?] at h
    split at h
    · cases h
    · rename_i l hl
      obtain ⟨-, rfl⟩ := of_loop? hl
      by_cases hcancelled : l.cancelled = true
      · rw [if_pos hcancelled] at h
        split at h
        · rename_i a hphase
          cases h
          exact .abandoned hl hcancelled hphase
        · rename_i hphase
          cases h
          exact .dropped hl hcancelled hphase
      · rw [if_neg hcancelled] at h
        cases h
  | pass d =>
    cases h
    exact .passed

/-- **An action that may happen comes to one of the moves**, and then a stored wake-up goes to a loop. -/
theorem move_of_step (h : t.step? action = some t') : ∃ t₁, t.Move action t₁ ∧ t' = t₁.hand := by
  obtain ⟨t₁, hact, rfl⟩ := Option.map_eq_some_iff.mp h
  exact ⟨t₁, move_of_act hact, rfl⟩

end DeviceTrust.KeySet.Timeline
