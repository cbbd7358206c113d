import DeviceTrust.Proofs.Token.Audience

/-!
# When a token is valid

A token that is accepted once is accepted at every moment from its start to its expiry, give or take
the tolerated difference between clocks, and at no other moment. This is so because the clock has
one say only: what the token carries, who signed it and for whom it is are settled without it.
-/

namespace DeviceTrust.Token

variable {audience : Option String} {hashes : List Rsa.Hash} {key : VerificationKey} {token : String} {now expiry : Int}
  {c c' : Claims} {v : Json} {f : Json.Fields}

/-- The bytes of the second segment, counted from the right. -/
def payload? (token : String) : Option Bytes := do
  let (message, _) ← splitLast token
  let (_, payload) ← splitLast message
  (decodeSegment payload).toOption

def document? (token : String) : Option Json := (payload? token).bind Json.read

def claims? (token : String) : Option Claims := (payload? token).bind readChecked

theorem Signed.claims?_eq (h : Signed hashes key token c) : claims? token = some c := by
  obtain ⟨-, htoken, hmessage, -, -, -, -, -, hpayload, hclaims⟩ := h
  simp only [claims?, payload?, htoken, hmessage, hpayload, Option.bind_eq_bind, Option.bind_some]
  exact hclaims

theorem Signed.eq (h : Signed hashes key token c) (h' : Signed hashes key token c') : c = c' :=
  Option.some.inj (h.claims?_eq.symm.trans h'.claims?_eq)

theorem Claims.expiry_of_ofJson? (h : Claims.ofJson? v = some c) :
    ∃ f, Json.fields? names v = some f ∧ f.optional? "exp" Json.int64? = some c.expiry := by
  obtain ⟨f, hfields, h⟩ := Option.bind_eq_some_iff.mp h
  -- The members that are read before the expiry, then the expiry, then the others.
  iterate 8 obtain ⟨_, -, h⟩ := Option.bind_eq_some_iff.mp h
  obtain ⟨e, hexpiry, h⟩ := Option.bind_eq_some_iff.mp h
  iterate 5 obtain ⟨_, -, h⟩ := Option.bind_eq_some_iff.mp h
  obtain rfl := Option.some.inj h
  exact ⟨f, hfields, hexpiry⟩

/-- The document has no expiry that is checked: the member is absent, `null`, or a time before the epoch. -/
def NoExpiry (f : Json.Fields) : Prop :=
  f.get? "exp" = none ∨ f.get? "exp" = some .null ∨ ∃ n, (f.get? "exp").bind Json.int64? = some n ∧ n < 0

/-- Claims whose expiry is given are valid at a time: the clock may be thirty seconds off, either way. -/
structure Claims.ValidAt (c : Claims) (expiry now : Int) : Prop where
  unexpired : now ≤ expiry + 30
  started : ∀ start, c.notBefore = some start → 0 ≤ start → start - 30 ≤ now

theorem checkedTime_eq_some {t : Option Int} {n : Int} : checkedTime t = some n ↔ t = some n ∧ 0 ≤ n := by
  simp [checkedTime, Option.filter_eq_some_iff]

/-- What the rules ask for splits into what the clock decides and what it does not. -/
theorem Rules.passes_current_iff_validAt :
    (Rules.current audience).Passes now c ↔
      ∃ expiry, (c.expiry = some expiry ∧ 0 ≤ expiry) ∧ c.ValidAt expiry now ∧
        ∀ wanted ∈ audience, ∀ a ∈ c.audience, wanted ∈ a.names := by
  constructor
  · rintro ⟨hlimited, hunexpired, hstarted, haddressed⟩
    obtain ⟨expiry, hexpiry⟩ := Option.ne_none_iff_exists'.mp (hlimited rfl)
    refine ⟨expiry, checkedTime_eq_some.mp hexpiry, ⟨?_, ?_⟩, haddressed⟩
    · have hend : now - 30 ≤ expiry := hunexpired expiry hexpiry
      omega
    · intro start hstart hnonneg
      have hbegin : start ≤ now + 30 := hstarted rfl start (checkedTime_eq_some.mpr ⟨hstart, hnonneg⟩)
      omega
  · rintro ⟨expiry, hexpiry, ⟨hunexpired, hstarted⟩, haddressed⟩
    have hchecked := checkedTime_eq_some.mpr hexpiry
    refine ⟨fun _ hnone => ?_, fun t ht => ?_, fun _ t ht => ?_, haddressed⟩
    · rw [hchecked] at hnone
      cases hnone
    · rw [hchecked] at ht
      cases ht
      change now - 30 ≤ expiry
      omega
    · obtain ⟨hstart, hnonneg⟩ := checkedTime_eq_some.mp ht
      have := hstarted t hstart hnonneg
      change t ≤ now + 30
      omega

/-- What is accepted now is accepted whenever its claims are valid, and no other claims ever are. -/
theorem Rules.verify_current_of_accepted (h : (Rules.current audience).verify key now token = .ok c) :
    ∃ expiry, c.expiry = some expiry ∧ 0 ≤ expiry ∧
      ∀ now c', (Rules.current audience).verify key now token = .ok c' ↔ c' = c ∧ c.ValidAt expiry now := by
  obtain ⟨hsigned, hpasses⟩ := verify_eq_ok_iff.mp h
  obtain ⟨expiry, ⟨hexpiry, hnonneg⟩, -, haddressed⟩ := passes_current_iff_validAt.mp hpasses
  refine ⟨expiry, hexpiry, hnonneg, fun now c' => ?_⟩
  rw [verify_eq_ok_iff]
  constructor
  · rintro ⟨hsigned', hpasses'⟩
    obtain rfl := hsigned'.eq hsigned
    obtain ⟨expiry', ⟨hexpiry', -⟩, hvalid, -⟩ := passes_current_iff_validAt.mp hpasses'
    obtain rfl : expiry' = expiry := Option.some.inj (hexpiry'.symm.trans hexpiry)
    exact ⟨rfl, hvalid⟩
  · rintro ⟨rfl, hvalid⟩
    exact ⟨hsigned, passes_current_iff_validAt.mpr ⟨expiry, ⟨hexpiry, hnonneg⟩, hvalid, haddressed⟩⟩

/-- Without an expiry that is checked a token is never accepted. -/
theorem Rules.not_accepted_of_noExpiry (hdocument : document? token = some v)
    (hfields : Json.fields? Claims.names v = some f) (h : NoExpiry f) (c : Claims) :
    (Rules.current audience).verify key now token ≠ .ok c := by
  intro haccepted
  obtain ⟨hsigned, hpasses⟩ := verify_eq_ok_iff.mp haccepted
  obtain ⟨expiry, ⟨hexpiry, hnonneg⟩, -, -⟩ := passes_current_iff_validAt.mp hpasses
  obtain ⟨document, hpayload, hread⟩ := Option.bind_eq_some_iff.mp hsigned.claims?_eq
  obtain ⟨v', hv', hclaims⟩ := Option.bind_eq_some_iff.mp (read_of_readChecked hread)
  have hsame : some v' = some v := by
    rw [← hv', ← hdocument, document?, hpayload, Option.bind_some]
  obtain rfl := Option.some.inj hsame
  obtain ⟨f', hf', htime⟩ := Claims.expiry_of_ofJson? hclaims
  obtain rfl := Option.some.inj (hf'.symm.trans hfields)
  rw [hexpiry, Json.Fields.optional?] at htime
  rcases h with habsent | hnull | ⟨n, hn, hneg⟩
  · rw [habsent] at htime
    cases htime
  · rw [hnull] at htime
    cases htime
  · obtain ⟨value, hvalue, hint⟩ := Option.bind_eq_some_iff.mp hn
    rw [hvalue] at htime
    cases value with
    | number m =>
      simp only [Json.orNull?, hint, Option.map_some, Option.some.injEq] at htime
      omega
    | _ => cases hint

theorem Rules.verify_of_signed {r : Rules} (h : Signed r.hashes key token c) :
    r.verify key now token = (r.check now c).map fun _ => c := by
  obtain ⟨hrsa, htoken, hmessage, hheader, halgorithm, hhash, hsignature, hgenuine, hpayload, hclaims⟩ := h
  simp only [Rules.verify, hrsa, htoken, hmessage, hheader, ok_bind, halgorithm, hhash, hsignature, hgenuine,
    hpayload, hclaims]
  cases r.check now c <;> rfl

/-- The expiry is looked at first, so nothing else is reported of an expired token. -/
theorem Rules.check_current_expired (hexpiry : c.expiry = some expiry) (hnonneg : 0 ≤ expiry) :
    (Rules.current audience).check now c = .error .expired ↔ expiry + 30 < now := by
  have hchecked := checkedTime_eq_some.mpr ⟨hexpiry, hnonneg⟩
  have hthere : ¬ ((Rules.current audience).requiresExpiry = true ∧ some expiry = none) := by
    rintro ⟨-, ⟨⟩⟩
  rw [check, hchecked, if_neg hthere]
  have hany : (some expiry).any (· < now - (Rules.current audience).leeway) = true ↔ expiry + 30 < now := by
    change decide (expiry < now - 30) = true ↔ _
    rw [decide_eq_true_iff]
    omega
  rw [← hany]
  split
  · rename_i hlate
    exact ⟨fun _ => hlate, fun _ => rfl⟩
  · rename_i hlate
    refine ⟨fun h => ?_, fun h => absurd h hlate⟩
    split at h
    · cases h
    · split at h
      · split at h
        · cases h
        · cases h
      · cases h

theorem Rules.isExpired_iff (hsigned : Signed [.sha256] key token c) (hexpiry : c.expiry = some expiry)
    (hnonneg : 0 ≤ expiry) :
    (∃ r, (Rules.current audience).verify key now token = .error r ∧ (Error.rejected r).isExpired = true) ↔
      expiry + 30 < now := by
  rw [← check_current_expired hexpiry hnonneg, verify_of_signed (r := Rules.current audience) hsigned]
  constructor
  · rintro ⟨r, hr, hexpired⟩
    obtain rfl : r = .expired := by simpa [Error.isExpired] using hexpired
    cases hcheck : (Rules.current audience).check now c with
    | error r' =>
      rw [hcheck] at hr
      cases hr
      rfl
    | ok _ =>
      rw [hcheck] at hr
      cases hr
  · intro hcheck
    rw [hcheck]
    exact ⟨.expired, rfl, rfl⟩

/-- **A token is accepted exactly while it is valid.** The moments at which a verifier of the current generation
accepts a token are none at all, or those between the start and the expiry of its claims, thirty seconds
added on both sides, with the same claims at each. There are none where no expiry is to be had, and none
where a moment in between is refused. Of a signed token it is reported that it has expired when it has, and
only then. -/
theorem accepted_exactly_while_valid (audience : Option String) (key : VerificationKey) (token : String) :
    ((∀ now, 30 ≤ now → ∃ r, (Rules.current audience).verify key now token = .error r) ∨
      ∃ c expiry, c.expiry = some expiry ∧ 0 ≤ expiry ∧ ∀ now, 30 ≤ now → ∀ c',
        (Rules.current audience).verify key now token = .ok c' ↔ c' = c ∧ c.ValidAt expiry now) ∧
    (∀ v f, document? token = some v → Json.fields? Claims.names v = some f → NoExpiry f →
      ∀ now, 30 ≤ now → ∃ r, (Rules.current audience).verify key now token = .error r) ∧
    (∀ c expiry, claims? token = some c → c.expiry = some expiry → 0 ≤ expiry →
      (∃ now r, 30 ≤ now ∧ c.ValidAt expiry now ∧ (Rules.current audience).verify key now token = .error r) →
      ∀ now, 30 ≤ now → ∃ r, (Rules.current audience).verify key now token = .error r) ∧
    (∀ c expiry, Signed [.sha256] key token c → c.expiry = some expiry → 0 ≤ expiry → ∀ now, 30 ≤ now →
      ((∃ r, (Rules.current audience).verify key now token = .error r ∧ (Error.rejected r).isExpired = true) ↔
        expiry + 30 < now)) := by
  refine ⟨?_, ?_, ?_, ?_⟩
  · by_cases hnever : ∀ now c, (Rules.current audience).verify key now token ≠ .ok c
    · exact .inl fun now _ => exists_error_of_not_ok (hnever now)
    · push Not at hnever
      obtain ⟨now₀, c, haccepted⟩ := hnever
      obtain ⟨expiry, hexpiry, hnonneg, hinterval⟩ := Rules.verify_current_of_accepted haccepted
      exact .inr ⟨c, expiry, hexpiry, hnonneg, fun now _ => hinterval now⟩
  · intro v f hdocument hfields hnone now _
    exact exists_error_of_not_ok (Rules.not_accepted_of_noExpiry hdocument hfields hnone)
  · rintro c expiry hclaims hexpiry - ⟨now₀, r, -, hvalid, hrefused⟩ now -
    refine exists_error_of_not_ok fun c' haccepted => ?_
    -- An acceptance at any time would make the token accepted at the moment at which it was refused.
    have hsigned := (Rules.verify_eq_ok_iff.mp haccepted).1
    obtain rfl : c' = c := Option.some.inj (hsigned.claims?_eq.symm.trans hclaims)
    obtain ⟨expiry', hexpiry', -, hinterval⟩ := Rules.verify_current_of_accepted haccepted
    obtain rfl : expiry' = expiry := Option.some.inj (hexpiry'.symm.trans hexpiry)
    rw [(hinterval now₀ c').mpr ⟨rfl, hvalid⟩] at hrefused
    cases hrefused
  · intro c expiry hsigned hexpiry hnonneg now _
    exact Rules.isExpired_iff hsigned hexpiry hnonneg

/-- A payload with a binding, a start and an expiry a minute later. -/
def timedPayload : String := "eyJtYWMiOiJhYWJiIiwibmJmIjoxNzAwMDAwMDAwLCJleHAiOjE3MDAwMDAwNjB9"

def timedSignature : String :=
  "Wgla18lqrYWMdMSYZacTb6ZWFr-cHPLeYaxCBHEjUAbvmIqLQTH1uRsAQQ3mLNAC8iAkbwjuo-Jn-Hy0SXzwXH" ++
    "AWX200K410lrzIuk_d5B-dfE-As6QAlkj_shlg3DDjce08z76MXMzTMzk5oYB6-49rk1EbeITwEKz1TPNDCHVR" ++
    "AR9lRrAUdeZdPmaK955xXvVOJRjFRFJWBBHeQ9_4hDLxKYDS7zv6qddUnNwVhRLbjluuHrSa_Vr7lUAbx_Q6_A" ++
    "SARzAEgxCjUzIRFl2wTei2sWi97xDTEGAXsV09jBiJ4L-a6rFK7jkVOtBdSpUHf4duNbWmbzVv5xcga3M5Lw"

def timedClaims : Claims := { mac := "aabb", notBefore := some 1700000000, expiry := some 1700000060 }

def timedToken : String := issuerHeader ++ "." ++ timedPayload ++ "." ++ timedSignature

theorem timedToken_signed : Signed [.sha256] issuerKey timedToken timedClaims :=
  .of_segments "RS256" rfl rfl (by decide +kernel) (by decide +kernel) (by decide +kernel)

def endlessToken : String := "e30.e30."

/-- The token is accepted for two minutes and a second, and then it has expired. A key that did not sign it accepts it
at no time, and without an expiry nothing is accepted. -/
theorem timedToken_accepted_while_valid :
    (∀ now, 30 ≤ now → ((Rules.current none).verify issuerKey now timedToken = .ok timedClaims ↔
      1699999970 ≤ now ∧ now ≤ 1700000090)) ∧
    (∃ r, (Rules.current none).verify issuerKey 1700000091 timedToken = .error r ∧
      (Error.rejected r).isExpired = true) ∧
    (∀ now, 30 ≤ now → ∃ r, (Rules.current none).verify (.secret [1]) now timedToken = .error r) ∧
    ∀ now, 30 ≤ now → ∃ r, (Rules.current none).verify issuerKey now endlessToken = .error r := by
  have hsigned := timedToken_signed
  have haccepted : (Rules.current none).verify issuerKey 1700000000 timedToken = .ok timedClaims :=
    Rules.verify_eq_ok_iff.mpr ⟨hsigned, Rules.check_eq_ok_iff.mp rfl⟩
  have hvalid : timedClaims.ValidAt 1700000060 1700000000 := ⟨by decide, by rintro _ ⟨rfl⟩ -; decide⟩
  obtain ⟨heither, -, -, hexpired⟩ := accepted_exactly_while_valid none issuerKey timedToken
  obtain ⟨-, -, hrefused, -⟩ := accepted_exactly_while_valid none (.secret [1]) timedToken
  obtain ⟨-, hendless, -, -⟩ := accepted_exactly_while_valid none issuerKey endlessToken
  refine ⟨?_, ?_, ?_, ?_⟩
  · obtain hnever | ⟨c, expiry, hexpiry, -, hinterval⟩ := heither
    · obtain ⟨r, hr⟩ := hnever 1700000000 (by decide)
      rw [haccepted] at hr
      cases hr
    · obtain ⟨rfl, -⟩ := (hinterval 1700000000 (by decide) timedClaims).mp haccepted
      obtain rfl : 1700000060 = expiry := Option.some.inj hexpiry
      intro now hnow
      rw [hinterval now hnow timedClaims]
      constructor
      · rintro ⟨-, hend, hstart⟩
        have hstart := hstart 1700000000 rfl (by decide)
        omega
      · rintro ⟨hstart, hend⟩
        refine ⟨rfl, by omega, ?_⟩
        rintro _ ⟨rfl⟩ -
        omega
  · exact (hexpired timedClaims 1700000060 hsigned rfl (by decide) 1700000091 (by decide)).mpr (by decide)
  · exact hrefused timedClaims 1700000060 hsigned.claims?_eq rfl (by decide)
      ⟨1700000000, .algorithm, by decide, hvalid, rfl⟩
  · have hdocument : ((document? endlessToken).bind (Json.fields? Claims.names)).any
        (fun f => (f.get? "exp").isNone) = true := by
      decide +kernel
    obtain ⟨f, hf, habsent⟩ := (Option.any_eq_true _ _).mp hdocument
    obtain ⟨v, hv, hfields⟩ := Option.bind_eq_some_iff.mp hf
    exact hendless v f hv hfields (.inl (Option.isNone_iff_eq_none.mp habsent))

end DeviceTrust.Token
