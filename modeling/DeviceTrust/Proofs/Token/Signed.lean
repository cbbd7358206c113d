import DeviceTrust.Proofs.Outcome
import DeviceTrust.Token.Verifier

/-!
# What a verifier has seen of an accepted token

Verification does two things: it takes a signed token apart, which depends on the key and on
the digests that are allowed, and it checks the claims, which depends on the clock and on
the audience. `Signed` states the first part and `Rules.Passes` the second; a verifier accepts
exactly where both hold.
-/

namespace DeviceTrust.Token

variable {r : Rules} {hashes : List Rsa.Hash} {key : VerificationKey} {now : Int} {token : String} {c : Claims}

/-- The token carries these claims under a signature of the key. -/
inductive Signed (hashes : List Rsa.Hash) (key : VerificationKey) (token : String) (c : Claims) : Prop where
  | intro {message signature header payload algorithm : String} {headerBytes signatureBytes payloadBytes : Bytes}
    {hash : Rsa.Hash} (hrsa : key.isRsa = true) (htoken : splitLast token = some (message, signature))
    (hmessage : splitLast message = some (header, payload)) (hheader : decodeSegment header = .ok headerBytes)
    (halgorithm : readAlgorithm headerBytes = some algorithm)
    (hhash : (hashOfAlgorithm? algorithm).filter hashes.contains = some hash)
    (hsignature : decodeSegment signature = .ok signatureBytes)
    (hgenuine : (key.rsa?.any fun k => k.verify hash (Bytes.ofText message) signatureBytes) = true)
    (hpayload : decodeSegment payload = .ok payloadBytes) (hclaims : readChecked payloadBytes = some c) :
    Signed hashes key token c

/-- Claims that pass the checks at a time: each clause binds only where its claim is there, save that an
expiry may be asked for. -/
structure Rules.Passes (r : Rules) (now : Int) (c : Claims) : Prop where
  limited : r.requiresExpiry = true → checkedTime c.expiry ≠ none
  unexpired : ∀ t ∈ checkedTime c.expiry, now - r.leeway ≤ t
  started : r.checksStart = true → ∀ t ∈ checkedTime c.notBefore, t ≤ now + r.leeway
  addressed : ∀ wanted ∈ r.audience, ∀ a ∈ c.audience, wanted ∈ a.names

theorem any_lt_eq_false {t : Option Int} {n : Int} : t.any (· < n) = false ↔ ∀ u ∈ t, n ≤ u := by
  cases t <;> simp

theorem any_gt_eq_false {t : Option Int} {n : Int} : t.any (n < ·) = false ↔ ∀ u ∈ t, u ≤ n := by
  cases t <;> simp

theorem Rules.check_eq_ok_iff : r.check now c = .ok () ↔ r.Passes now c := by
  rw [check]
  constructor
  · intro h
    split at h
    · cases h
    · rename_i hlimited
      split at h
      · cases h
      · rename_i hunexpired
        split at h
        · cases h
        · rename_i hstarted
          refine ⟨fun hr hnone => hlimited ⟨hr, hnone⟩, ?_, ?_, ?_⟩
          · exact any_lt_eq_false.mp (Bool.eq_false_iff.mpr hunexpired)
          · intro hr
            exact any_gt_eq_false.mp (Bool.eq_false_iff.mpr fun hs => hstarted ⟨hr, hs⟩)
          · intro wanted hwanted a ha
            rw [Option.mem_def.mp hwanted, Option.mem_def.mp ha] at h
            simp only at h
            split at h
            · rename_i hnames
              exact List.contains_iff_mem.mp hnames
            · cases h
  · rintro ⟨hlimited, hunexpired, hstarted, haddressed⟩
    rw [if_neg (fun h => hlimited h.1 h.2), any_lt_eq_false.mpr hunexpired, if_neg Bool.false_ne_true,
      if_neg (fun h => Bool.false_ne_true ((any_gt_eq_false.mpr (hstarted h.1)).symm.trans h.2))]
    split
    · rename_i wanted a hwanted ha
      exact if_pos (List.contains_iff_mem.mpr (haddressed wanted hwanted a ha))
    · rfl

/-- **A verifier accepts the signed tokens whose claims pass its checks.** -/
theorem Rules.verify_eq_ok_iff :
    r.verify key now token = .ok c ↔ Signed r.hashes key token c ∧ r.Passes now c := by
  rw [← check_eq_ok_iff]
  constructor
  · intro h
    unfold Rules.verify at h
    simp only at h
    split at h
    · cases h
    · rename_i hrsa
      have hrsa : key.isRsa = true := by simpa using hrsa
      split at h
      · rename_i message signature htoken
        split at h
        · rename_i header payload hmessage
          obtain ⟨headerBytes, hheader, h⟩ := bind_eq_ok.mp h
          split at h
          · rename_i algorithm halgorithm
            split at h
            · rename_i hash hhash
              obtain ⟨signatureBytes, hsignature, h⟩ := bind_eq_ok.mp h
              split at h
              · cases h
              · rename_i hgenuine
                obtain ⟨payloadBytes, hpayload, h⟩ := bind_eq_ok.mp h
                split at h
                · rename_i claims hclaims
                  obtain ⟨⟨⟩, hcheck, ⟨⟩⟩ := bind_eq_ok.mp h
                  exact ⟨⟨hrsa, htoken, hmessage, hheader, halgorithm, hhash, hsignature,
                    by simpa using hgenuine, hpayload, hclaims⟩, hcheck⟩
                · cases h
            · cases h
          · cases h
        · cases h
      · cases h
  · rintro ⟨⟨hrsa, htoken, hmessage, hheader, halgorithm, hhash, hsignature, hgenuine, hpayload, hclaims⟩, hcheck⟩
    simp only [Rules.verify, hrsa, htoken, hmessage, hheader, ok_bind, halgorithm, hhash, hsignature, hgenuine,
      hpayload, hclaims, hcheck]
    rfl

end DeviceTrust.Token
