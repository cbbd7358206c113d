import DeviceTrust.Proofs.Token.Validity

/-!
# When a token of the older generation has expired

The older rules do not ask for an expiry, but they honour the one that a token carries: five minutes
after it the token is refused. The expiry is read twice, once as the signed number that is handed out
and once as a time that is checked, and a number before the epoch is no time. So a token that
carries one is taken for a token without an expiry, and is accepted at every moment.
-/

namespace DeviceTrust.Token

variable {hashes hashes' : List Rsa.Hash} {key : VerificationKey} {token : String} {now expiry : Int} {c : Claims}

theorem Signed.mono (h : Signed hashes key token c) (hsubset : hashes ⊆ hashes') : Signed hashes' key token c := by
  obtain ⟨hrsa, htoken, hmessage, hheader, halgorithm, hhash, hsignature, hgenuine, hpayload, hclaims⟩ := h
  refine ⟨hrsa, htoken, hmessage, hheader, halgorithm, ?_, hsignature, hgenuine, hpayload, hclaims⟩
  rw [Option.filter_eq_some_iff] at hhash ⊢
  exact ⟨hhash.1, List.contains_iff_mem.mpr (hsubset (List.contains_iff_mem.mp hhash.2))⟩

/-- The older rules look at nothing but the expiry, and at that only where it is a time. -/
theorem Rules.passes_legacy_iff :
    Rules.legacy.Passes now c ↔ ∀ expiry, c.expiry = some expiry → 0 ≤ expiry → now - 300 ≤ expiry := by
  constructor
  · intro h expiry hexpiry hnonneg
    exact h.unexpired expiry (checkedTime_eq_some.mpr ⟨hexpiry, hnonneg⟩)
  · intro h
    refine ⟨nofun, fun t ht => ?_, nofun, nofun⟩
    obtain ⟨hexpiry, hnonneg⟩ := checkedTime_eq_some.mp ht
    exact h t hexpiry hnonneg

theorem Rules.verify_legacy_iff :
    Rules.legacy.verify key now token = .ok c ↔ Signed Rules.legacy.hashes key token c ∧
      ∀ expiry, c.expiry = some expiry → 0 ≤ expiry → now - 300 ≤ expiry := by
  rw [verify_eq_ok_iff, passes_legacy_iff]

theorem Rules.check_legacy_expired (hexpiry : c.expiry = some expiry) (hnonneg : 0 ≤ expiry)
    (hlate : expiry < now - 300) : Rules.legacy.check now c = .error .expired := by
  have hchecked := checkedTime_eq_some.mpr ⟨hexpiry, hnonneg⟩
  have hany : (checkedTime c.expiry).any (· < now - Rules.legacy.leeway) = true := by
    rw [hchecked]
    exact decide_eq_true hlate
  rw [check, if_neg (fun h => Bool.false_ne_true h.1), if_pos hany]

theorem Claims.isExpiredAt_iff (hexpiry : c.expiry = some expiry) : c.isExpiredAt now = true ↔ expiry ≤ now := by
  rw [isExpiredAt, hexpiry]
  exact decide_eq_true_iff

/-- **An expiry that is a time is honoured for five minutes and no longer.** A token of the older generation is
accepted as long as its expiry, if it is not negative, lies no more than five minutes back, and is refused as
expired from then on. One with a negative expiry is accepted always, although the claims that are
handed out say that it has expired. -/
theorem legacy_expiry_honoured (key : VerificationKey) (token : String) (now : Int) (hnow : 300 ≤ now) :
    (∀ c, Rules.legacy.verify key now token = .ok c ↔ Signed Rules.legacy.hashes key token c ∧
      ∀ expiry, c.expiry = some expiry → 0 ≤ expiry → now - 300 ≤ expiry) ∧
    (∀ c expiry, Rules.legacy.verify key now token = .ok c → c.expiry = some expiry → 0 ≤ expiry →
      now - 300 ≤ expiry ∧ c.isExpiredAt (now - 301) = false) ∧
    (∀ c expiry, Signed Rules.legacy.hashes key token c → c.expiry = some expiry → 0 ≤ expiry →
      expiry < now - 300 → Rules.legacy.verify key now token = .error .expired) ∧
    ∀ c expiry, Signed Rules.legacy.hashes key token c → c.expiry = some expiry → expiry < 0 →
      Rules.legacy.verify key now token = .ok c ∧ c.isExpiredAt (now - 301) = true := by
  refine ⟨fun c => Rules.verify_legacy_iff, ?_, ?_, ?_⟩
  · intro c expiry haccepted hexpiry hnonneg
    have hwithin : now - 300 ≤ expiry := (Rules.verify_legacy_iff.mp haccepted).2 expiry hexpiry hnonneg
    refine ⟨hwithin, Bool.eq_false_iff.mpr fun hexpired => ?_⟩
    have hbefore : expiry ≤ now - 301 := (Claims.isExpiredAt_iff hexpiry).mp hexpired
    omega
  · intro c expiry hsigned hexpiry hnonneg hlate
    rw [Rules.verify_of_signed hsigned, Rules.check_legacy_expired hexpiry hnonneg hlate]
    rfl
  · intro c expiry hsigned hexpiry hneg
    constructor
    · refine Rules.verify_legacy_iff.mpr ⟨hsigned, fun t ht hnonneg => ?_⟩
      -- the expiry that would have to be honoured is not negative
      obtain rfl : expiry = t := Option.some.inj (hexpiry.symm.trans ht)
      omega
    · rw [Claims.isExpiredAt_iff hexpiry]
      omega

/-- The token with both times is accepted for five minutes after its expiry, and refused a second later. -/
theorem timedToken_honoured_for_five_minutes :
    Rules.legacy.verify issuerKey 1700000360 timedToken = .ok timedClaims ∧
    timedClaims.isExpiredAt 1700000059 = false ∧
    Rules.legacy.verify issuerKey 1700000361 timedToken = .error .expired := by
  have hsigned : Signed Rules.legacy.hashes issuerKey timedToken timedClaims :=
    timedToken_signed.mono (by decide)
  obtain ⟨haccepts, hwithin, -, -⟩ := legacy_expiry_honoured issuerKey timedToken 1700000360 (by decide)
  obtain ⟨-, -, hrefuses, -⟩ := legacy_expiry_honoured issuerKey timedToken 1700000361 (by decide)
  have haccepted : Rules.legacy.verify issuerKey 1700000360 timedToken = .ok timedClaims := by
    refine (haccepts timedClaims).mpr ⟨hsigned, ?_⟩
    rintro _ ⟨rfl⟩ -
    decide
  exact ⟨haccepted, (hwithin timedClaims 1700000060 haccepted rfl (by decide)).2,
    hrefuses timedClaims 1700000060 hsigned rfl (by decide) (by decide)⟩

/-- A payload with a binding and an expiry one second before the epoch. -/
def bygonePayload : String := "eyJtYWMiOiJhYWJiIiwiZXhwIjotMX0"

def bygoneSignature : String :=
  "jrWj5UZXBDVqSvUVS-ZMBMwkgenK9naYl9VFwJBnmiYpyKJd5b7E4b7W8CtGWahSc8dxk7-2LPxmH9buryk06z" ++
    "cOvVDyzMjV0DvfXh06W4MWxrNQH7QxyGS2-nRVTz-az_ZapCDIh9AD_V9RAhiU49ohlifgzy_3c6kuO1tJh-rB" ++
    "7dWRRGRjZDu2Sncu_OWjIVP2HBvxld_N0_dGmj07-HxwbsS5PkeURt2L2XLuyk7WaZGSoTO2HjKwNiH7T-9Qsu" ++
    "HPN48qxAc1N69YS1vjR025c7UIUDaSOrlJJ-Pkvu5028Zo3mjuHGnSZkDkDunl8cXRA78qpzZ-_bFBv5nhWw"

def bygoneClaims : Claims := { mac := "aabb", expiry := some (-1) }

def bygoneToken : String := issuerHeader ++ "." ++ bygonePayload ++ "." ++ bygoneSignature

theorem bygoneToken_signed : Signed Rules.legacy.hashes issuerKey bygoneToken bygoneClaims :=
  .of_segments "RS256" rfl rfl (by decide +kernel) (by decide +kernel) (by decide +kernel)

/-- It is accepted half a century later. -/
theorem bygoneToken_accepted :
    Rules.legacy.verify issuerKey 1700000000 bygoneToken = .ok bygoneClaims ∧ bygoneClaims.expiry = some (-1) ∧
      ¬ (1700000000 - 300 ≤ (-1 : Int)) ∧ bygoneClaims.isExpiredAt (1700000000 - 301) = true := by
  refine ⟨Rules.verify_legacy_iff.mpr ⟨bygoneToken_signed, ?_⟩, rfl, by decide, by decide⟩
  rintro _ ⟨rfl⟩ hnonneg
  exact absurd hnonneg (by decide)

end DeviceTrust.Token
