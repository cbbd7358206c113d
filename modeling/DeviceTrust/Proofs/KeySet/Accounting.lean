import DeviceTrust.Proofs.KeySet.Ledger

/-!
# Every attempt is accounted for

Each attempt that began has been answered with keys, answered with an error, or given up, unless it is
still under way. This is a balance of the history, and every effect keeps it: what begins is under way,
and what is under way is answered once or given up.
-/

namespace DeviceTrust.KeySet

variable {config : CacheConfig} {t t' : Timeline} {f : Flight}

namespace Occurrence

def isBeginning : Occurrence → Bool
  | .began _ _ => true
  | _ => false

def isSuccess : Occurrence → Bool
  | .answered _ (.refreshed _) => true
  | _ => false

def isFailure : Occurrence → Bool
  | .answered _ (.failed _) => true
  | _ => false

def isAbandonment : Occurrence → Bool
  | .abandoned _ => true
  | _ => false

end Occurrence

namespace Timeline

def tally (t : Timeline) (kind : Occurrence → Bool) : Nat := t.history.countP fun o => kind o.2

theorem begun_eq_tally (t : Timeline) : t.begun = t.tally Occurrence.isBeginning := by
  rw [begun, tally, List.countP_eq_length_filter]
  rfl

/-- Attempts that began and attempts whose end is known differ by those under way. -/
def Balanced (t : Timeline) : Prop :=
  t.tally Occurrence.isBeginning =
    t.tally Occurrence.isSuccess + t.tally Occurrence.isFailure + t.tally Occurrence.isAbandonment + t.flights.length

theorem tally_eq_of_history {o : Nat × Occurrence} {past : List (Nat × Occurrence)} (h : t.history = o :: past)
    (kind : Occurrence → Bool) : t.tally kind = past.countP (fun o => kind o.2) + if kind o.2 then 1 else 0 := by
  rw [tally, h, List.countP_cons]

theorem tally_endings {limit : Duration} {now : Nat}
    (h : t'.history = (f.endings limit).map (fun o => (now, o)) ++ t.history) :
    t'.tally Occurrence.isBeginning = t.tally Occurrence.isBeginning ∧
      t'.tally Occurrence.isAbandonment = t.tally Occurrence.isAbandonment ∧
      t'.tally Occurrence.isSuccess + t'.tally Occurrence.isFailure =
        t.tally Occurrence.isSuccess + t.tally Occurrence.isFailure + 1 := by
  unfold Flight.endings at h
  simp only [tally, h]
  cases f.attempt.reply.outcome limit with
  | ok keys =>
    simp [Occurrence.isBeginning, Occurrence.isAbandonment, Occurrence.isSuccess, Occurrence.isFailure]
    omega
  | error e =>
    cases f.reports <;>
      simp [Occurrence.isBeginning, Occurrence.isAbandonment, Occurrence.isSuccess, Occurrence.isFailure] <;> omega

theorem Balanced.effect (hb : t.Balanced) (h : t.Effect t') : t'.Balanced := by
  unfold Balanced at *
  cases h with
  | passed _ h | unconcerned h =>
    have hsame (kind : Occurrence → Bool) : t'.tally kind = t.tally kind := by rw [tally, h.history_eq, tally]
    rw [hsame, hsame, hsame, hsame, h.flights_perm.length_eq]
    exact hb
  | missed _ h | refused _ _ h | delayed _ _ _ h =>
    have htally := tally_eq_of_history h.history_eq
    rw [htally, htally, htally, htally, h.flights_perm.length_eq]
    exact hb
  | began f _ _ h =>
    have htally := tally_eq_of_history h.history_eq
    have hlength := h.flights_perm.length_eq
    rw [htally, htally, htally, htally, hlength, List.length_cons]
    exact congrArg Nat.succ hb
  | ended f rest hflights _ h =>
    obtain ⟨hbegun, habandoned, hsettled⟩ := tally_endings h.history_eq
    have hbefore := hflights.length_eq
    rw [List.length_cons] at hbefore
    have hafter := h.flights_perm.length_eq
    omega
  | abandoned f rest hflights h =>
    have htally := tally_eq_of_history h.history_eq
    have hbefore := hflights.length_eq
    rw [List.length_cons] at hbefore
    rw [htally, htally, htally, htally, h.flights_perm.length_eq]
    show t.tally _ = t.tally _ + t.tally _ + (t.tally _ + 1) + rest.length
    omega

theorem Single.length_flights_eq (hs : t.Single) : t.flights.length = if t.cache.locked then 1 else 0 := by
  cases hs with
  | idle hlock hflights _ => rw [hlock, hflights]; rfl
  | busy f past hlock hflights _ _ => rw [hlock, hflights]; rfl

end Timeline

/-- **Every attempt is accounted for**, in every reachable timeline. -/
theorem Reachable.balanced (ht : Reachable config t) : t.Balanced :=
  ht.invariant (P := Timeline.Balanced) (fun _ => rfl) fun _ _ _ hb h => hb.effect h

end DeviceTrust.KeySet
