import DeviceTrust.Proofs.Base64.Canonical
import DeviceTrust.Proofs.Text.Parts
import DeviceTrust.Proofs.Token.Signed
import DeviceTrust.Token.Authority

/-!
# Which tokens an authority accepts

The policy of a class is applied to claims that nobody has verified yet. That is sound
because they are the claims that verification hands out later: a token with three segments
is cut into the same header and payload from the left and from the right, and a payload that
reads strictly has no padding for the tolerant reader to pass over.
-/

namespace DeviceTrust.Token

variable {a : Authority} {now : Int} {token header payload kid : String} {cls : TokenClass}
  {binding : Option String} {c : Claims}

theorem splitLast_eq {s : String} {head tail : List Char} (hs : s.toList = head ++ '.' :: tail)
    (htail : '.' ∉ tail) : splitLast s = some (String.ofList head, String.ofList tail) := by
  have hrev : s.toList.reverse = tail.reverse ++ '.' :: head.reverse := by
    rw [hs, List.reverse_append, List.reverse_cons, List.append_assoc]
    rfl
  have hpass : ∀ x ∈ tail.reverse, (x != '.') = true := by
    intro x hx
    rw [bne_iff_ne]
    rintro rfl
    exact htail (List.mem_reverse.mp hx)
  simp [splitLast, hrev, List.takeWhile_append_of_pos hpass, List.dropWhile_append_of_pos hpass]

theorem eq_of_splitLast {s head tail : String} (h : splitLast s = some (head, tail)) :
    s.toList = head.toList ++ '.' :: tail.toList ∧ '.' ∉ tail.toList := by
  unfold splitLast at h
  simp only at h
  split at h
  · cases h
  · rename_i dot rest hdrop
    cases h
    have hfirst := List.head?_dropWhile_not (· != '.') s.toList.reverse
    rw [hdrop] at hfirst
    obtain rfl : dot = '.' := by simpa using hfirst
    have hwhole := List.takeWhile_append_dropWhile (p := (· != '.')) (l := s.toList.reverse)
    rw [hdrop, ← List.reverse_inj, List.reverse_append, List.reverse_cons, List.reverse_reverse,
      List.append_assoc] at hwhole
    rw [String.toList_ofList, String.toList_ofList]
    refine ⟨hwhole.symm, fun hdot => ?_⟩
    simpa using List.all_eq_true.mp List.all_takeWhile '.' (List.mem_reverse.mp hdot)

theorem splitLast_append {message signature : String} (h : '.' ∉ signature.toList) :
    splitLast (message ++ "." ++ signature) = some (message, signature) := by
  have hlist : (message ++ "." ++ signature).toList = message.toList ++ '.' :: signature.toList := by
    rw [String.toList_append, String.toList_append, List.append_assoc]
    rfl
  rw [splitLast_eq hlist h, String.ofList_toList, String.ofList_toList]

theorem segments_append {signature : String} (hheader : '.' ∉ header.toList) (hpayload : '.' ∉ payload.toList)
    (hsignature : '.' ∉ signature.toList) (hfirst : header.isEmpty = false) (hsecond : payload.isEmpty = false) :
    segments? (header ++ "." ++ payload ++ "." ++ signature) = .ok (header, payload) := by
  have hsplit : Text.split '.' (header ++ "." ++ payload ++ "." ++ signature) = [header, payload, signature] :=
    Text.split_three hheader hpayload hsignature
  rw [segments?, hsplit]
  simp only [hfirst, hsecond]
  rfl

/-- Three segments are the same segments from the left and from the right. -/
theorem splitLast_of_segments (h : segments? token = .ok (header, payload)) :
    ∃ message signature, splitLast token = some (message, signature) ∧
      splitLast message = some (header, payload) := by
  unfold segments? at h
  split at h
  · rename_i _ first second third hsplit
    split at h
    · cases h
    · cases h
      obtain ⟨htoken, hpayload, hsignature⟩ := Text.split_eq_three hsplit
      have hmessage : token.toList = (header.toList ++ '.' :: payload.toList) ++ '.' :: third.toList := by
        rw [htoken, List.append_assoc, List.cons_append]
      refine ⟨_, _, splitLast_eq hmessage hsignature, ?_⟩
      rw [splitLast_eq String.toList_ofList hpayload, String.ofList_toList, String.ofList_toList]
  · cases h

/-- A segment that reads strictly reads the same where padding is tolerated. -/
theorem readPart_eq_ok {α : Type} {part : Part} {read : Bytes → Option α} {segment : String} {document : Bytes}
    {v : α} (hdecode : decodeSegment segment = .ok document) (hread : read document = some v) :
    readPart part read segment = .ok v := by
  unfold decodeSegment at hdecode
  split at hdecode
  · rename_i b hb
    cases hdecode
    have hbare : Text.dropWhileEnd (· == '=') segment.toList = segment.toList := by
      refine Text.dropWhileEnd_eq_self ?_
      intro x hx
      rw [beq_eq_false_iff_ne]
      rintro rfl
      exact Base64.padding_notMem_of_decode hb hx
    simp only [readPart, hbare, String.ofList_toList, hb, hread]
  · cases hdecode

theorem read_of_readChecked {document : Bytes} (h : readChecked document = some c) :
    Claims.read document = some c := by
  simp only [readChecked, Option.bind_eq_bind, Option.bind_eq_some_iff] at h
  obtain ⟨v, hv, claims, hclaims, h⟩ := h
  have hc : claims = c := by
    split at h
    · split at h
      · exact Option.some.inj h
      · cases h
    · exact Option.some.inj h
  rw [Claims.read, hv, Option.bind_some, hclaims, hc]

/-- **The claims of a signed token are the ones read without verification**, given that it has three
segments at all. -/
theorem Signed.readClaims {hashes : List Rsa.Hash} {key : VerificationKey} (h : Signed hashes key token c)
    (hsegments : segments? token = .ok (header, payload)) : readClaims token = .ok c := by
  obtain ⟨message, signature, htoken, hmessage⟩ := splitLast_of_segments hsegments
  obtain ⟨-, htoken', hmessage', -, -, -, -, -, hpayload, hclaims⟩ := h
  rw [htoken] at htoken'
  cases htoken'
  rw [hmessage] at hmessage'
  cases hmessage'
  rw [Token.readClaims, hsegments, ok_bind]
  exact readPart_eq_ok hpayload (read_of_readChecked hclaims)

theorem segments_of_parseKid (h : parseKid token = .ok kid) :
    ∃ header payload, segments? token = .ok (header, payload) := by
  obtain ⟨⟨header, payload⟩, hsegments, -⟩ := bind_eq_ok.mp h
  exact ⟨header, payload, hsegments⟩

/-- Claims that a class of tokens asks for, under a binding if one is given. -/
structure ClassPolicy.Admits (p : ClassPolicy) (binding : Option String) (c : Claims) : Prop where
  capability : p.requiredCapabilities = [] ∨ ∃ name ∈ p.requiredCapabilities, name ∈ c.capabilities
  bound : ∀ b ∈ binding, c.mac ≠ "" ∧ Text.lowerAscii c.mac = Text.lowerAscii b

theorem ClassPolicy.allows_iff {p : ClassPolicy} : p.allows kid = true ↔ kid ∈ p.allowedKids :=
  List.contains_iff_mem

theorem ClassPolicy.capability_iff {p : ClassPolicy} :
    (!p.requiredCapabilities.isEmpty && !c.hasAnyCapability p.requiredCapabilities) = false ↔
      p.requiredCapabilities = [] ∨ ∃ name ∈ p.requiredCapabilities, name ∈ c.capabilities := by
  rw [Bool.and_eq_false_iff, Bool.not_eq_false', Bool.not_eq_false', List.isEmpty_iff]
  simp [Claims.hasAnyCapability]

theorem Claims.bound_iff : (binding.any fun b => !c.isBoundTo b) = false ↔
    ∀ b ∈ binding, c.mac ≠ "" ∧ Text.lowerAscii c.mac = Text.lowerAscii b := by
  cases binding with
  | none => simp
  | some b => simp [Claims.isBoundTo, Text.sameIgnoringCase]

theorem ClassPolicy.admits_iff {p : ClassPolicy} :
    p.Admits binding c ↔
      (!p.requiredCapabilities.isEmpty && !c.hasAnyCapability p.requiredCapabilities) = false ∧
        (binding.any fun b => !c.isBoundTo b) = false := by
  rw [capability_iff, Claims.bound_iff]
  exact ⟨fun h => ⟨h.capability, h.bound⟩, fun h => ⟨h.1, h.2⟩⟩

theorem Authority.screen_eq_ok_iff :
    a.screen token cls binding = .ok kid ↔ parseKid token = .ok kid ∧ kid ∈ (a.policy cls).allowedKids ∧
      ∃ c, readClaims token = .ok c ∧ (a.policy cls).Admits binding c := by
  rw [← ClassPolicy.allows_iff]
  constructor
  · intro h
    obtain ⟨kid', hkid, h⟩ := bind_eq_ok.mp h
    simp only at h
    split at h
    · cases h
    · rename_i hallowed
      obtain ⟨c, hc, h⟩ := bind_eq_ok.mp h
      split at h
      · cases h
      · rename_i hcapability
        split at h
        · cases h
        · rename_i hbound
          cases h
          refine ⟨hkid, by simpa using hallowed, c, hc, ?_⟩
          exact ClassPolicy.admits_iff.mpr ⟨Bool.eq_false_iff.mpr hcapability, Bool.eq_false_iff.mpr hbound⟩
  · rintro ⟨hkid, hallowed, c, hc, hadmits⟩
    obtain ⟨hcapability, hbound⟩ := ClassPolicy.admits_iff.mp hadmits
    simp only [screen, hkid, ok_bind, hallowed, hc, hcapability, hbound]
    rfl

/-- A token is accepted when it passes the screening, its key is trusted and the verifier accepts it. -/
theorem Authority.verify_fst_eq_ok_iff :
    (a.verify now token cls binding).1 = .ok c ↔ ∃ kid key, a.screen token cls binding = .ok kid ∧
      (a.trustStore.resolve kid).1 = some key ∧ a.rules.verify key now token = .ok c := by
  rw [verify]
  cases hscreen : a.screen token cls binding with
  | error e => simp
  | ok kid =>
    cases hresolve : a.trustStore.resolve kid with
    | mk found store =>
      cases found with
      | none => simp [hresolve]
      | some key => simp [hresolve, mapError_eq_ok]

/-- Claims of a token that names a key and verifies are those that are read without verification. -/
theorem Rules.readClaims_of_verify {r : Rules} {key : VerificationKey} (hkid : parseKid token = .ok kid)
    (h : r.verify key now token = .ok c) : readClaims token = .ok c := by
  obtain ⟨header, payload, hsegments⟩ := segments_of_parseKid hkid
  exact (Rules.verify_eq_ok_iff.mp h).1.readClaims hsegments

/-- **Acceptance is sound and complete for the claims that are handed out.** The policy is stated of these
claims, and whenever there are any they are the ones that the policy was applied to. -/
theorem Authority.accepts_iff (a : Authority) (now : Int) (token : String) (cls : TokenClass)
    (binding : Option String) :
    (∀ c, (a.verify now token cls binding).1 = .ok c ↔ ∃ kid key, parseKid token = .ok kid ∧
      kid ∈ (a.policy cls).allowedKids ∧ (a.trustStore.resolve kid).1 = some key ∧
      a.rules.verify key now token = .ok c ∧ (a.policy cls).Admits binding c) ∧
    ((∃ e, (a.verify now token cls binding).1 = .error e) ∨
      ∃ c, (a.verify now token cls binding).1 = .ok c ∧ readClaims token = .ok c) := by
  constructor
  · intro c
    rw [verify_fst_eq_ok_iff]
    constructor
    · rintro ⟨kid, key, hscreen, hresolve, hverify⟩
      obtain ⟨hkid, hallowed, c', hc', hadmits⟩ := screen_eq_ok_iff.mp hscreen
      have hc := Rules.readClaims_of_verify hkid hverify
      rw [hc] at hc'
      cases hc'
      exact ⟨kid, key, hkid, hallowed, hresolve, hverify, hadmits⟩
    · rintro ⟨kid, key, hkid, hallowed, hresolve, hverify, hadmits⟩
      have hc := Rules.readClaims_of_verify hkid hverify
      exact ⟨kid, key, screen_eq_ok_iff.mpr ⟨hkid, hallowed, c, hc, hadmits⟩, hresolve, hverify⟩
  · cases hresult : (a.verify now token cls binding).1 with
    | error e => exact .inl ⟨e, rfl⟩
    | ok c =>
      obtain ⟨kid, key, hscreen, -, hverify⟩ := verify_fst_eq_ok_iff.mp hresult
      obtain ⟨hkid, -, -⟩ := screen_eq_ok_iff.mp hscreen
      exact .inr ⟨c, rfl, Rules.readClaims_of_verify hkid hverify⟩

end DeviceTrust.Token
