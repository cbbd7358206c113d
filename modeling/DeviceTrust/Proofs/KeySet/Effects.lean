import DeviceTrust.Proofs.KeySet.Moves
import Mathlib.Data.List.Nodup
import Mathlib.Data.List.Perm.Basic

/-!
# What one action does to the attempts of a timeline

Callers and loops differ in when they ask for a refresh, and agree in what asking does. This
module says it once: whatever the action, it leaves the attempts alone, or one is refused,
begins, ends, or is given up. `Effect` lists these cases with all that they change in the shared
state, wake-ups aside, and `effect_of_step` proves that there are no others. What is true of every
run follows from the cases, without another look at the actions.
-/

namespace DeviceTrust.KeySet

variable {t t' : Timeline} {c : Call} {l : Loop} {id : Nat} {reply : Reply} {who : Actor}

/-- An attempt under way, whose it is, and whether errors of it are reported. -/
structure Flight where
  who : Actor
  reports : Bool
  attempt : Attempt

/-- The attempt that a caller waits for. -/
def Call.flight (c : Call) : Flight := ⟨.caller c.id, c.reports, c.attempt⟩

/-- The attempt that a loop waits for, if it waits for one. -/
def Loop.flight? (l : Loop) : Option Flight :=
  match l.phase with
  | .fetching a => some ⟨.loop l.id, l.reports, a⟩
  | _ => none

theorem Loop.flight?_of_fetching {a : Attempt} (h : l.phase = .fetching a) :
    l.flight? = some ⟨.loop l.id, l.reports, a⟩ := by
  rw [flight?, h]

theorem Loop.flight?_eq_none_iff : l.flight? = none ↔ ∀ a, l.phase ≠ .fetching a := by
  rw [flight?]
  cases l.phase <;> simp

theorem Loop.rouse_id (l : Loop) : l.rouse.id = l.id := by
  unfold rouse
  cases l.phase <;> rfl

theorem Loop.rouse_flight? (l : Loop) : l.rouse.flight? = l.flight? := by
  cases hphase : l.phase <;> simp only [flight?, rouse, hphase]

namespace Timeline

def flights (t : Timeline) : List Flight := t.calls.map Call.flight ++ t.loops.filterMap Loop.flight?

/-- Each caller that waits, and each loop, has an identifier of its own. -/
structure Distinct (t : Timeline) : Prop where
  calls : (t.calls.map Call.id).Nodup
  loops : (t.loops.map Loop.id).Nodup

theorem perm_cons_filter {α : Type} {key : α → Nat} {xs : List α} {x : α} (hkeys : (xs.map key).Nodup)
    (hx : x ∈ xs) : xs.Perm (x :: xs.filter (key · != key x)) := by
  induction xs with
  | nil => cases hx
  | cons y ys ih =>
    rw [List.map_cons, List.nodup_cons] at hkeys
    rcases List.mem_cons.mp hx with rfl | hx
    · have hothers : ys.filter (key · != key x) = ys := by
        refine List.filter_eq_self.mpr fun z hz => ?_
        rw [bne_iff_ne]
        exact fun h => hkeys.1 (h ▸ List.mem_map_of_mem hz)
      rw [List.filter_cons_of_neg (by simp), hothers]
    · have hy : key y ≠ key x := fun h => hkeys.1 (h ▸ List.mem_map_of_mem hx)
      rw [List.filter_cons_of_pos (by simpa using hy)]
      exact ((ih hkeys.2 hx).cons y).trans (List.Perm.swap x y _)

def otherFlights (t : Timeline) (l : Loop) : List Flight :=
  t.calls.map Call.flight ++ (t.loops.filter (·.id != l.id)).filterMap Loop.flight?

theorem flights_perm_of_loop (hd : t.Distinct) (hl : l ∈ t.loops) :
    t.flights.Perm (l.flight?.toList ++ t.otherFlights l) := by
  have h := (perm_cons_filter hd.loops hl).filterMap Loop.flight?
  have hcons : (l :: t.loops.filter (·.id != l.id)).filterMap Loop.flight? =
      l.flight?.toList ++ (t.loops.filter (·.id != l.id)).filterMap Loop.flight? := by
    cases hf : l.flight? <;> simp [hf]
  rw [hcons] at h
  exact (h.append_left _).trans (List.perm_append_comm_assoc _ _ _)

theorem flights_perm_of_call (hd : t.Distinct) (hc : c ∈ t.calls) :
    t.flights.Perm (c.flight :: ({ t with calls := t.calls.filter (·.id != c.id) } : Timeline).flights) :=
  ((perm_cons_filter hd.calls hc).map Call.flight).append_right _

theorem flights_enter (t : Timeline) (l : Loop) (phase : Phase) :
    (t.enter l phase).flights.Perm (({ l with phase } : Loop).flight?.toList ++ t.otherFlights l) := by
  have h : (t.enter l phase).flights = t.otherFlights l ++ ({ l with phase } : Loop).flight?.toList := by
    cases hf : ({ l with phase } : Loop).flight? <;>
      simp [flights, otherFlights, enter, hf, List.filterMap_append]
  rw [h]
  exact List.perm_append_comm

/-- A loop that waits for no attempt before or after moving has no part in the attempts. -/
theorem flights_enter_of_none (hd : t.Distinct) (hl : l ∈ t.loops) (hbefore : l.flight? = none) (phase : Phase)
    (hafter : ({ l with phase } : Loop).flight? = none) : (t.enter l phase).flights.Perm t.flights := by
  have hto := flights_enter t l phase
  have hfrom := flights_perm_of_loop hd hl
  rw [hafter] at hto
  rw [hbefore] at hfrom
  exact hto.trans hfrom.symm

theorem nodup_filter {α : Type} {key : α → Nat} {xs : List α} (hkeys : (xs.map key).Nodup) (p : α → Bool) :
    ((xs.filter p).map key).Nodup := hkeys.sublist (List.filter_sublist.map _)

theorem nodup_concat {α : Type} {key : α → Nat} {xs : List α} {x : α} (hkeys : (xs.map key).Nodup)
    (hnew : ∀ y ∈ xs, key y ≠ key x) : ((xs ++ [x]).map key).Nodup := by
  rw [List.map_append, List.map_singleton, List.nodup_append]
  refine ⟨hkeys, List.nodup_singleton _, ?_⟩
  intro i hi j hj
  obtain ⟨y, hy, rfl⟩ := List.mem_map.mp hi
  obtain rfl := List.mem_singleton.mp hj
  exact hnew y hy

/-- A loop that is changed where it stands, but not in its identifier nor in its attempt. -/
theorem flights_adjust (id : Nat) {f : Loop → Loop} (hf : ∀ l, (f l).flight? = l.flight?) :
    (t.adjust id f).flights = t.flights := by
  have hloops : (t.adjust id f).loops.filterMap Loop.flight? = t.loops.filterMap Loop.flight? := by
    rw [adjust, List.filterMap_map]
    congr 1
    funext l
    show (if l.id = id then f l else l).flight? = l.flight?
    by_cases hid : l.id = id
    · rw [if_pos hid, hf]
    · rw [if_neg hid]
  rw [flights, hloops]
  rfl

theorem distinct_adjust (hd : t.Distinct) (id : Nat) {f : Loop → Loop} (hf : ∀ l, (f l).id = l.id) :
    (t.adjust id f).Distinct := by
  have hids : (t.adjust id f).loops.map Loop.id = t.loops.map Loop.id := by
    rw [adjust, List.map_map]
    congr 1
    funext l
    show (if l.id = id then f l else l).id = l.id
    by_cases hid : l.id = id
    · rw [if_pos hid, hf]
    · rw [if_neg hid]
  exact ⟨hd.calls, hids ▸ hd.loops⟩

/-- A stored wake-up stays where it is, or it is handed to a loop that waits for one. -/
theorem hand_cases (t : Timeline) : t.hand = t ∨
    t.cache.wake = true ∧ ∃ l ∈ t.loops, l.isIdle = true ∧
      t.hand = { t.adjust l.id Loop.rouse with cache := { t.cache with wake := false } } := by
  unfold hand
  cases hfound : t.loops.find? Loop.isIdle with
  | none => exact .inl rfl
  | some l =>
    by_cases hwake : t.cache.wake = true
    · have hidle : l.isIdle = true := List.find?_some hfound
      exact .inr ⟨hwake, l, List.mem_of_find?_eq_some hfound, hidle, if_pos hwake⟩
    · exact .inl (if_neg hwake)

/-- A wake-up is stored only while no loop waits for one. -/
def Handed (t : Timeline) : Prop := t.cache.wake = true → ∀ l ∈ t.loops, l.isIdle = false

theorem hand_eq_self (h : t.Handed) : t.hand = t := by
  rcases hand_cases t with heq | ⟨hwake, l, hl, hidle, -⟩
  · exact heq
  · rw [h hwake l hl] at hidle
    cases hidle

theorem origin_hand (t : Timeline) : t.hand.origin = t.origin := by
  rcases hand_cases t with heq | ⟨-, l, -, -, heq⟩ <;> rw [heq]
  rfl

theorem hand_frame (t : Timeline) : t.hand.now = t.now ∧ t.hand.calls = t.calls ∧ t.hand.history = t.history ∧
    t.hand.flights = t.flights ∧ ∃ wake, t.hand.cache = { t.cache with wake } := by
  rcases hand_cases t with heq | ⟨-, l, -, -, heq⟩
  · rw [heq]
    exact ⟨rfl, rfl, rfl, rfl, _, rfl⟩
  · have hflights := flights_adjust (t := t) l.id Loop.rouse_flight?
    rw [heq]
    exact ⟨rfl, rfl, rfl, hflights, false, rfl⟩

theorem distinct_hand (hd : t.Distinct) : t.hand.Distinct := by
  rcases hand_cases t with heq | ⟨-, l, -, -, heq⟩
  · rwa [heq]
  · have hd' := distinct_adjust hd l.id Loop.rouse_id
    rw [heq]
    exact ⟨hd'.calls, hd'.loops⟩

theorem distinct_enter (hd : t.Distinct) (l : Loop) (phase : Phase) : (t.enter l phase).Distinct :=
  ⟨hd.calls, nodup_concat (nodup_filter hd.loops _) fun _ hk => bne_iff_ne.mp (List.mem_filter.mp hk).2⟩

end Timeline

theorem Cache.admission_eq_inFlight {c : Cache} {now : Nat} : c.admission now = .inFlight ↔ c.locked = true := by
  rw [admission]
  cases c.locked with
  | true => simp
  | false => by_cases h : c.remaining now = 0 <;> simp [h]

theorem Cache.admission_eq_rateLimited {c : Cache} {now : Nat} {d : Duration} :
    c.admission now = .rateLimited d ↔ c.locked = false ∧ c.remaining now = d ∧ d ≠ 0 := by
  rw [admission]
  cases c.locked with
  | true => simp
  | false =>
    by_cases h : c.remaining now = 0
    · simp [h, eq_comm]
    · simp only [h, Bool.false_eq_true, if_false, Admission.rateLimited.injEq, true_and]
      exact ⟨fun hd => ⟨hd, hd ▸ h⟩, And.left⟩

theorem Cache.admission_eq_admitted {c : Cache} {now : Nat} :
    c.admission now = .admitted ↔ c.locked = false ∧ c.remaining now = 0 := by
  rw [admission]
  cases c.locked with
  | true => simp
  | false => by_cases h : c.remaining now = 0 <;> simp [h]

namespace Timeline

/-- A request for a refresh is turned away, whoever makes it, because an attempt is under way. -/
def TurnsAway (t : Timeline) : Prop :=
  ∀ who reply, t.request who reply = (t.note (.answered who .inFlight), none)

/-- A request for a refresh is put off for a time, whoever makes it. -/
def PutsOff (t : Timeline) (d : Duration) : Prop :=
  ∀ who reply, t.request who reply = (t.note (.answered who (.rateLimited d)), none)

/-- A request for a refresh begins an attempt, whoever makes it. -/
def Admits (t : Timeline) : Prop :=
  ∀ who reply, t.request who reply =
    (({ t with cache := t.cache.begin t.now }).note (.began who ⟨t.now, reply⟩), some ⟨t.now, reply⟩)

theorem turnsAway_iff : t.TurnsAway ↔ t.cache.locked = true := by
  refine Iff.trans ?_ (@Cache.admission_eq_inFlight t.cache t.now)
  constructor
  · intro h
    have hanswer := h (.caller 0) ⟨0, .ok .empty⟩
    cases hadmission : t.cache.admission t.now with
    | inFlight => rfl
    | rateLimited d => rw [request_rateLimited hadmission] at hanswer; simp [note] at hanswer
    | admitted => rw [request_admitted hadmission] at hanswer; simp at hanswer
  · exact fun h who reply => request_inFlight h

theorem putsOff_iff {d : Duration} :
    t.PutsOff d ↔ t.cache.locked = false ∧ t.cache.remaining t.now = d ∧ d ≠ 0 := by
  rw [← Cache.admission_eq_rateLimited]
  constructor
  · intro h
    have hanswer := h (.caller 0) ⟨0, .ok .empty⟩
    cases hadmission : t.cache.admission t.now with
    | inFlight => rw [request_inFlight hadmission] at hanswer; simp [note] at hanswer
    | rateLimited d' => rw [request_rateLimited hadmission] at hanswer; simp_all [note]
    | admitted => rw [request_admitted hadmission] at hanswer; simp at hanswer
  · exact fun h who reply => request_rateLimited h

theorem admits_iff : t.Admits ↔ t.cache.locked = false ∧ t.cache.remaining t.now = 0 := by
  rw [← Cache.admission_eq_admitted]
  constructor
  · intro h
    have hanswer := h (.caller 0) ⟨0, .ok .empty⟩
    cases hadmission : t.cache.admission t.now with
    | inFlight => rw [request_inFlight hadmission] at hanswer; simp at hanswer
    | rateLimited d' => rw [request_rateLimited hadmission] at hanswer; simp at hanswer
    | admitted => rfl
  · exact fun h who reply => request_admitted h

end Timeline

theorem Cache.finish_locked (c : Cache) (wall : Moment) (result : Except Error KeySet) :
    (c.finish wall result).locked = false := by
  cases result <;> rfl

theorem Cache.finish_lastAttempt (c : Cache) (wall : Moment) (result : Except Error KeySet) :
    (c.finish wall result).lastAttempt = c.lastAttempt := by
  cases result <;> rfl

theorem Cache.finish_config (c : Cache) (wall : Moment) (result : Except Error KeySet) :
    (c.finish wall result).config = c.config := by
  cases result <;> rfl

/-- What is noted at the end of an attempt, latest first. -/
def Flight.endings (f : Flight) (limit : Duration) : List Occurrence :=
  match f.attempt.reply.outcome limit with
  | .ok keys => [.answered f.who (.refreshed keys.size)]
  | .error e => .answered f.who (.failed e) :: if f.reports then [.reported f.who e] else []

namespace Timeline

theorem conclude_eq (t : Timeline) (who : Actor) (reports : Bool) (a : Attempt) :
    t.conclude who reports a =
      { t with
        cache := t.cache.finish t.wall (a.reply.outcome t.cache.config.fetchTimeout)
        history :=
          ((⟨who, reports, a⟩ : Flight).endings t.cache.config.fetchTimeout).map (fun o => (t.now, o)) ++
            t.history } := by
  unfold conclude Flight.endings
  cases a.reply.outcome t.cache.config.fetchTimeout with
  | ok keys => rfl
  | error e => cases reports <;> rfl

/-- What a timeline becomes: the time, its shared state up to wake-ups, its attempts up to their order, and its
history. Identifiers stay unique. -/
structure Becomes (t : Timeline) (now : Nat) (cache : Cache) (flights : List Flight)
    (history : List (Nat × Occurrence)) (t' : Timeline) : Prop where
  now_eq : t'.now = now
  origin_eq : t'.origin = t.origin
  cache_eq : ∃ wake, t'.cache = { cache with wake }
  flights_perm : t'.flights.Perm flights
  history_eq : t'.history = history
  distinct : t'.Distinct

/-- Handing a wake-up to a loop changes nothing of that. -/
theorem Becomes.hand {now : Nat} {cache : Cache} {flights : List Flight} {history : List (Nat × Occurrence)}
    (h : t.Becomes now cache flights history t') : t.Becomes now cache flights history t'.hand := by
  obtain ⟨hnow, -, hhistory, hflights, wake, hwake⟩ := hand_frame t'
  obtain ⟨_, hcache⟩ := h.cache_eq
  refine ⟨hnow.trans h.now_eq, (origin_hand t').trans h.origin_eq, ⟨wake, ?_⟩, ?_, hhistory.trans h.history_eq,
    distinct_hand h.distinct⟩
  · rw [hwake, hcache]
  · rw [hflights]
    exact h.flights_perm

inductive Effect (t t' : Timeline) : Prop where
  | passed (d : Duration) (h : t.Becomes (t.now + d) t.cache t.flights t.history t')
  /-- A loop comes, goes or waits for something else, or a key is found. -/
  | unconcerned (h : t.Becomes t.now t.cache t.flights t.history t')
  | missed (kid : String) (h : t.Becomes t.now t.cache t.flights ((t.now, .missed kid) :: t.history) t')
  | refused (who : Actor) (hbusy : t.cache.admission t.now = .inFlight)
      (h : t.Becomes t.now t.cache t.flights ((t.now, .answered who .inFlight) :: t.history) t')
  | delayed (who : Actor) (d : Duration) (hlimited : t.cache.admission t.now = .rateLimited d)
      (h : t.Becomes t.now t.cache t.flights ((t.now, .answered who (.rateLimited d)) :: t.history) t')
  | began (f : Flight) (hadmitted : t.cache.admission t.now = .admitted) (hnow : f.attempt.began = t.now)
      (h : t.Becomes t.now (t.cache.begin t.now) (f :: t.flights) ((t.now, .began f.who f.attempt) :: t.history) t')
  | ended (f : Flight) (rest : List Flight) (hflights : t.flights.Perm (f :: rest)) (hdue : t.due f.attempt ≤ t.now)
      (h : t.Becomes t.now (t.cache.finish t.wall (f.attempt.reply.outcome t.cache.config.fetchTimeout)) rest
        ((f.endings t.cache.config.fetchTimeout).map (fun o => (t.now, o)) ++ t.history) t')
  | abandoned (f : Flight) (rest : List Flight) (hflights : t.flights.Perm (f :: rest))
      (h : t.Becomes t.now t.cache.abandon rest ((t.now, .abandoned f.who) :: t.history) t')

/-- A loop's request, whatever became of the wake-up before it. -/
theorem effect_cycle (wake : Bool) (hd : t.Distinct) (hl : l ∈ t.loops) (hfree : l.flight? = none) :
    t.Effect (({ t with cache := { t.cache with wake } } : Timeline).cycle l reply) := by
  -- the wake-up may have been taken before; neither the attempts nor the admission depend on it
  have hrest (t₁ : Timeline) (hcalls : t₁.calls = t.calls) (hloops : t₁.loops = t.loops) (deadline : Nat) :
      (t₁.enter l (.idle deadline)).flights.Perm t.flights := by
    have h := flights_enter_of_none hd hl hfree (.idle deadline) rfl
    simpa only [flights, enter, hcalls, hloops] using h
  cases h : t.cache.admission t.now with
  | inFlight =>
    rw [cycle, request_inFlight (t := { t with cache := { t.cache with wake } }) h]
    exact .refused _ h ⟨rfl, rfl, ⟨wake, rfl⟩, hrest _ rfl rfl _, rfl, ⟨hd.calls, (distinct_enter hd l _).loops⟩⟩
  | rateLimited d =>
    rw [cycle, request_rateLimited (t := { t with cache := { t.cache with wake } }) h]
    exact .delayed _ d h ⟨rfl, rfl, ⟨wake, rfl⟩, hrest _ rfl rfl _, rfl, ⟨hd.calls, (distinct_enter hd l _).loops⟩⟩
  | admitted =>
    rw [cycle, request_admitted (t := { t with cache := { t.cache with wake } }) h]
    refine .began ⟨.loop l.id, l.reports, ⟨t.now, reply⟩⟩ h rfl
      ⟨rfl, rfl, ⟨wake, rfl⟩, ?_, rfl, ⟨hd.calls, (distinct_enter hd l _).loops⟩⟩
    have hto := flights_enter t l (.fetching ⟨t.now, reply⟩)
    have hfrom := flights_perm_of_loop hd hl
    rw [hfree] at hfrom
    exact hto.trans (hfrom.symm.cons _)

theorem effect_takeWake (hd : t.Distinct) (hl : l ∈ t.loops) (hfree : l.flight? = none) :
    t.Effect (t.takeWake l reply) := by
  rw [takeWake]
  by_cases hover : t.cache.remaining t.now = 0
  · rw [if_pos hover]
    exact effect_cycle t.cache.wake hd hl hfree
  · have hflights := flights_enter_of_none hd hl hfree (.held (t.now + t.cache.remaining t.now)) rfl
    rw [if_neg hover]
    exact .unconcerned ⟨rfl, rfl, ⟨_, rfl⟩, hflights, rfl, ⟨hd.calls, (distinct_enter hd l _).loops⟩⟩

theorem flight?_of_canAwaken (h : l.canAwaken = true) : l.flight? = none := by
  refine Loop.flight?_eq_none_iff.mpr fun a hphase => ?_
  rw [Loop.canAwaken, Loop.isWoken, hphase] at h
  cases h

theorem effect_of_move {action : Action} (hd : t.Distinct) (h : t.Move action t') : t.Effect t' := by
  cases h with
  | refused _ hbusy => exact .refused _ hbusy ⟨rfl, rfl, ⟨_, rfl⟩, .refl _, rfl, ⟨hd.calls, hd.loops⟩⟩
  | delayed _ hlimited => exact .delayed _ _ hlimited ⟨rfl, rfl, ⟨_, rfl⟩, .refl _, rfl, ⟨hd.calls, hd.loops⟩⟩
  | @began id reports reply hnew hadmitted =>
    refine .began ⟨.caller id, reports, ⟨t.now, reply⟩⟩ hadmitted rfl
      ⟨rfl, rfl, ⟨_, rfl⟩, ?_, rfl, ⟨nodup_concat hd.calls hnew, hd.loops⟩⟩
    simp only [flights, note, List.map_append, List.map_cons, List.map_nil, List.append_assoc]
    exact List.perm_middle
  | completed hc hdue =>
    refine .ended _ _ (flights_perm_of_call hd (of_call? hc).1) hdue ?_
    rw [conclude_eq]
    exact ⟨rfl, rfl, ⟨_, rfl⟩, .refl _, rfl, ⟨nodup_filter hd.calls _, hd.loops⟩⟩
  | withdrawn hc =>
    exact .abandoned _ _ (flights_perm_of_call hd (of_call? hc).1)
      ⟨rfl, rfl, ⟨_, rfl⟩, .refl _, rfl, ⟨nodup_filter hd.calls _, hd.loops⟩⟩
  | rested hl _ hphase hdue =>
    have hflights := flights_perm_of_loop hd (of_loop? hl).1
    rw [Loop.flight?_of_fetching hphase] at hflights
    refine .ended _ _ hflights hdue ?_
    rw [conclude_eq]
    exact ⟨rfl, rfl, ⟨_, rfl⟩, flights_enter _ _ _, rfl, ⟨hd.calls, (distinct_enter hd _ _).loops⟩⟩
  | cycled hl _ hphase _ => exact effect_cycle _ hd (of_loop? hl).1 (Loop.flight?_eq_none_iff.mpr hphase)
  | awoken hl hawaken => exact effect_takeWake hd (of_loop? hl).1 (flight?_of_canAwaken hawaken)
  | found _ => exact .unconcerned ⟨rfl, rfl, ⟨_, rfl⟩, .refl _, rfl, hd⟩
  | @missed kid _ => exact .missed kid ⟨rfl, rfl, ⟨_, rfl⟩, .refl _, rfl, ⟨hd.calls, hd.loops⟩⟩
  | spawned hnew =>
    refine .unconcerned ⟨rfl, rfl, ⟨_, rfl⟩, ?_, rfl, ⟨hd.calls, nodup_concat hd.loops hnew⟩⟩
    rw [flights, List.filterMap_append, List.filterMap_cons_none rfl, List.filterMap_nil, List.append_nil]
    exact .refl _
  | @cancelled l _ =>
    have hflights := flights_adjust (t := t) l.id (f := fun l => { l with cancelled := true }) fun _ => rfl
    exact .unconcerned ⟨rfl, rfl, ⟨_, rfl⟩, hflights ▸ .refl _, rfl, distinct_adjust hd l.id fun _ => rfl⟩
  | abandoned hl _ hphase =>
    have hflights := flights_perm_of_loop hd (of_loop? hl).1
    rw [Loop.flight?_of_fetching hphase] at hflights
    exact .abandoned _ _ hflights ⟨rfl, rfl, ⟨_, rfl⟩, .refl _, rfl, ⟨hd.calls, nodup_filter hd.loops _⟩⟩
  | dropped hl _ hphase =>
    have hflights := flights_perm_of_loop hd (of_loop? hl).1
    rw [Loop.flight?_eq_none_iff.mpr hphase] at hflights
    exact .unconcerned ⟨rfl, rfl, ⟨_, rfl⟩, hflights.symm, rfl, ⟨hd.calls, nodup_filter hd.loops _⟩⟩
  | passed => exact .passed _ ⟨rfl, rfl, ⟨_, rfl⟩, .refl _, rfl, ⟨hd.calls, hd.loops⟩⟩

theorem Effect.hand (h : t.Effect t') : t.Effect t'.hand := by
  cases h with
  | passed d h => exact .passed d h.hand
  | unconcerned h => exact .unconcerned h.hand
  | missed kid h => exact .missed kid h.hand
  | refused who hbusy h => exact .refused who hbusy h.hand
  | delayed who d hlimited h => exact .delayed who d hlimited h.hand
  | began f hadmitted hnow h => exact .began f hadmitted hnow h.hand
  | ended f rest hflights hdue h => exact .ended f rest hflights hdue h.hand
  | abandoned f rest hflights h => exact .abandoned f rest hflights h.hand

/-- **An action has one of the effects**, as long as nobody shares an identifier. -/
theorem effect_of_step {action : Action} (hd : t.Distinct) (h : t.step? action = some t') : t.Effect t' := by
  obtain ⟨t₁, hmove, rfl⟩ := move_of_step h
  exact (effect_of_move hd hmove).hand

theorem Effect.distinct (h : t.Effect t') : t'.Distinct := by
  cases h with
  | passed _ h | unconcerned h | missed _ h | refused _ _ h | delayed _ _ _ h | began _ _ _ h | ended _ _ _ _ h
  | abandoned _ _ _ h => exact h.distinct

theorem Effect.now_le (h : t.Effect t') : t.now ≤ t'.now := by
  cases h with
  | passed d h =>
    rw [h.now_eq]
    exact Nat.le_add_right _ _
  | unconcerned h | missed _ h | refused _ _ h | delayed _ _ _ h | began _ _ _ h | ended _ _ _ _ h
  | abandoned _ _ _ h => exact Nat.le_of_eq h.now_eq.symm

end Timeline

end DeviceTrust.KeySet
