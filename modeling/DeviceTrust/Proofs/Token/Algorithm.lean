import DeviceTrust.Proofs.Json.Fields
import DeviceTrust.Proofs.Rsa.Verification
import DeviceTrust.Proofs.Token.Audience

/-!
# No confusion of algorithms

A key set may publish keys of any family, and a header may name any algorithm. A verifier goes by
neither: it turns away keys that are no RSA keys before it looks at the token, and then asks that the
header names one of its own algorithms. So what it accepts was signed with RSA, under the algorithm that
the header names, on the text before the last dot.
-/

namespace DeviceTrust

def Rsa.Hash.algorithm : Rsa.Hash → String
  | sha256 => "RS256"
  | sha384 => "RS384"
  | sha512 => "RS512"

namespace Token

variable {kind : VerifierKind} {audience : Option String} {key : VerificationKey} {now : Int} {token name : String}
  {allowed : List String} {c : Claims} {hash : Rsa.Hash}

/-- The algorithms that tokens of a generation are signed with. -/
def VerifierKind.algorithms : VerifierKind → List String
  | current => ["RS256"]
  | legacy => ["RS256", "RS384", "RS512"]

theorem hashOfAlgorithm?_eq_some (h : hashOfAlgorithm? name = some hash) : name = hash.algorithm := by
  unfold hashOfAlgorithm? at h
  split at h
  · cases h
    assumption
  · split at h
    · cases h
      assumption
    · split at h
      · cases h
        assumption
      · cases h

theorem VerifierKind.algorithm_mem (h : hash ∈ (kind.rules audience).hashes) :
    hash.algorithm ∈ kind.algorithms := by
  cases kind with
  | current =>
    obtain rfl := List.mem_singleton.mp h
    exact List.mem_singleton_self _
  | legacy => cases hash <;> decide

/-- The header of the token is an object in which `alg` is this text. -/
inductive NamesAlgorithm (token name : String) : Prop where
  | intro {header : String} {segments : List String} {headerBytes : Bytes} {members : List (Bytes × Json)}
    {key : Bytes} {value : Json} (hsegments : Text.split '.' token = header :: segments)
    (hheader : decodeSegment header = .ok headerBytes) (hread : Json.read headerBytes = some (.object members))
    (hmember : (key, value) ∈ members) (hkey : Json.unspell key = some "alg")
    (hvalue : Json.text? value = some name) : NamesAlgorithm token name

theorem readAlgorithm_eq {document key : Bytes} {members : List (Bytes × Json)} {value : Json} {algorithm : String}
    (h : readAlgorithm document = some algorithm) (hread : Json.read document = some (.object members))
    (hmember : (key, value) ∈ members) (hkey : Json.unspell key = some "alg")
    (hvalue : Json.text? value = some name) : algorithm = name := by
  simp only [readAlgorithm, hread, Option.bind_eq_bind, Option.bind_some, Option.bind_eq_some_iff] at h
  obtain ⟨f, hfields, -, -, read, halgorithm, -, -, -, -, -, -, -, -, -, -, -, -, -, -, -, -, hresult⟩ := h
  obtain rfl : read = algorithm := Option.some.inj hresult
  rw [Json.Fields.required?, Json.get?_of_fields? hfields hmember hkey (by decide), Option.bind_some,
    Json.choice?_of_text? hvalue, Option.ite_none_right_eq_some] at halgorithm
  exact (Option.some.inj halgorithm.2).symm

/-- The last segment is a signature of the RSA key on the text before it. The header names the algorithm, and
it is among those that are allowed. -/
inductive RsaSigned (allowed : List String) (key : VerificationKey) (token : String) : Prop where
  | intro {header payload signature message : String} {headerBytes signatureBytes : Bytes} {hash : Rsa.Hash}
    {k : Rsa.PublicKey} (hrsa : key.isRsa = true) (hkey : key.rsa? = some k)
    (hsegments : Text.split '.' token = [header, payload, signature])
    (hmessage : token = message ++ "." ++ signature) (hheader : decodeSegment header = .ok headerBytes)
    (halgorithm : readAlgorithm headerBytes = some hash.algorithm) (hallowed : hash.algorithm ∈ allowed)
    (hsignature : decodeSegment signature = .ok signatureBytes)
    (hsigned : k.Signs hash (Bytes.ofText message) signatureBytes) : RsaSigned allowed key token

theorem append_of_splitLast {s head tail : String} (h : splitLast s = some (head, tail)) :
    s = head ++ "." ++ tail := by
  rw [← String.toList_inj, String.toList_append, String.toList_append, (eq_of_splitLast h).1]
  simp

theorem dot_notMem_of_decodeSegment {segment : String} {b : Bytes} (h : decodeSegment segment = .ok b) :
    '.' ∉ segment.toList := by
  unfold decodeSegment at h
  split at h
  · rename_i hdecode
    exact Base64.dot_notMem_of_decode hdecode
  · cases h

theorem Signed.rsaSigned (h : Signed (kind.rules audience).hashes key token c) :
    RsaSigned kind.algorithms key token := by
  obtain ⟨hrsa, htoken, hmessage, hheader, halgorithm, hhash, hsignature, hgenuine, -, -⟩ := h
  obtain ⟨hhash, hallowed⟩ := Option.filter_eq_some_iff.mp hhash
  obtain ⟨k, hkey, hverify⟩ := (Option.any_eq_true _ _).mp hgenuine
  obtain rfl := hashOfAlgorithm?_eq_some hhash
  -- no segment has a dot inside, so cutting from the left gives the ones that were cut off from the right
  have hsegments := Text.split_three (dot_notMem_of_decodeSegment hheader) (eq_of_splitLast hmessage).2
    (eq_of_splitLast htoken).2
  change Text.split '.' (_ ++ "." ++ _ ++ "." ++ _) = _ at hsegments
  rw [← append_of_splitLast hmessage, ← append_of_splitLast htoken] at hsegments
  exact ⟨hrsa, hkey, hsegments, append_of_splitLast htoken, hheader, halgorithm,
    VerifierKind.algorithm_mem (List.contains_iff_mem.mp hallowed), hsignature,
    (VerificationKey.verify_iff_of_rsa? hkey).mp hverify⟩

theorem RsaSigned.mem_of_namesAlgorithm (h : RsaSigned allowed key token) (hname : NamesAlgorithm token name) :
    name ∈ allowed := by
  obtain ⟨-, -, hsegments, -, hheader, halgorithm, hallowed, -, -⟩ := h
  obtain ⟨hsegments', hheader', hread, hmember, hkey, hvalue⟩ := hname
  -- the header that was read is the first segment, and so is the one that names the algorithm
  rw [hsegments] at hsegments'
  cases hsegments'
  rw [hheader] at hheader'
  cases hheader'
  exact readAlgorithm_eq halgorithm hread hmember hkey hvalue ▸ hallowed

/-- Only an RSA entry of a key set yields an RSA key. -/
theorem isRsa_of_key? {j : Jwk} (h : j.key? = some key) (hother : ∀ n e, j.parameters ≠ .rsa n e) :
    key.isRsa = false := by
  unfold Jwk.key? at h
  simp only at h
  split at h
  · rename_i n e hparameters
    exact absurd hparameters (hother n e)
  · simp only [Option.bind_eq_bind, Option.bind_eq_some_iff] at h
    obtain ⟨x, -, y, -, ⟨⟩⟩ := h
    rfl
  · obtain ⟨bytes, -, rfl⟩ := Option.map_eq_some_iff.mp h
    rfl
  · obtain ⟨x, -, rfl⟩ := Option.map_eq_some_iff.mp h
    rfl

theorem Rules.verify_of_not_isRsa {r : Rules} (h : key.isRsa = false) :
    r.verify key now token = .error .algorithm := by
  rw [verify, h]
  rfl

theorem Rules.rsaSigned_of_verify (h : (kind.rules audience).verify key now token = .ok c) :
    RsaSigned kind.algorithms key token :=
  (verify_eq_ok_iff.mp h).1.rsaSigned

/-- **No confusion of algorithms.** Whatever key a verifier is given and whenever, it accepts only what was
signed with RSA under one of its own algorithms. A token that names another algorithm is refused under every
key, and any token under a key that a key set has from an entry of another family. The same goes for an
authority and the key that it finds. -/
theorem no_algorithm_confusion (kind : VerifierKind) (audience : Option String) (now : Int) (token : String) :
    (∀ key c, (kind.rules audience).verify key now token = .ok c → RsaSigned kind.algorithms key token) ∧
    (∀ name, NamesAlgorithm token name → name ∉ kind.algorithms →
      ∀ key, ∃ e, (kind.rules audience).verify key now token = .error e) ∧
    (∀ j kid key, KeySet.usable? j = some (kid, key) → (∀ n e, j.parameters ≠ .rsa n e) →
      (kind.rules audience).verify key now token = .error .algorithm) ∧
    ∀ a : Authority, a.rules = kind.rules audience → ∀ cls binding,
      (∀ c, (a.verify now token cls binding).1 = .ok c → ∃ kid key, parseKid token = .ok kid ∧
        (a.trustStore.resolve kid).1 = some key ∧ RsaSigned kind.algorithms key token) ∧
      ∀ name, NamesAlgorithm token name → name ∉ kind.algorithms →
        ∃ e, (a.verify now token cls binding).1 = .error e := by
  refine ⟨fun key c => Rules.rsaSigned_of_verify, ?_, ?_, ?_⟩
  · intro name hname hother key
    refine exists_error_of_not_ok fun c haccepted => hother ?_
    exact (Rules.rsaSigned_of_verify haccepted).mem_of_namesAlgorithm hname
  · intro j kid key husable hother
    simp only [KeySet.usable?, Option.bind_eq_bind, Option.bind_eq_some_iff] at husable
    obtain ⟨_, -, hkey⟩ := husable
    split at hkey
    · cases hkey
    · obtain ⟨_, hkey, ⟨⟩⟩ := Option.map_eq_some_iff.mp hkey
      exact Rules.verify_of_not_isRsa (isRsa_of_key? hkey hother)
  · intro a hrules cls binding
    have hsigned (c : Claims) (h : (a.verify now token cls binding).1 = .ok c) : ∃ kid key,
        parseKid token = .ok kid ∧ (a.trustStore.resolve kid).1 = some key ∧ RsaSigned kind.algorithms key token := by
      obtain ⟨kid, key, hscreen, hresolve, hverify⟩ := Authority.verify_fst_eq_ok_iff.mp h
      rw [hrules] at hverify
      exact ⟨kid, key, (Authority.screen_eq_ok_iff.mp hscreen).1, hresolve, Rules.rsaSigned_of_verify hverify⟩
    refine ⟨hsigned, fun name hname hother => exists_error_of_not_ok fun c haccepted => hother ?_⟩
    obtain ⟨_, _, -, -, hrsa⟩ := hsigned c haccepted
    exact hrsa.mem_of_namesAlgorithm hname

/-- A header that names the longest digest of the older generation. -/
def olderHeader : String := "eyJhbGciOiJSUzUxMiIsImtpZCI6IndlYmNvbmZpZ19rZXkifQ"

def olderPayload : String := "eyJtYWMiOiJhYWJiIn0"

def olderSignature : String :=
  "gGupp2edGNEo1fDWXH8I32HMebsludy4CMkUwANB1J2z9-D0ri6NtqNr2Lmh7x8WkqgUJw49BxAf9T1QRi42_c" ++
    "Wdpkvph9cZ5aS6yF3qyE6_eXgXNqKI1Qy-eN_iqS7qq_LiLhT2b4BtUPOGRyq19TI6eAfzAX9v42YaSVfpli8E" ++
    "qiUCy12KDmu8LNsVrhXBZs8pO6WZj71r_nfnuzxJYYD-v-9gzx1AaTK3fxKzZWPhRBECYPWa85bZ-A7tgh7qJn" ++
    "iXyHr6nBFXxrP9s9bkx77k8YDTynae_v9pRC4EOgStbzJA3zgI3_YkYE6KEfzjudYxJVJhhBRKEasfT0TBYg"

def olderToken : String := olderHeader ++ "." ++ olderPayload ++ "." ++ olderSignature

def olderClaims : Claims := { mac := "aabb" }

theorem olderToken_accepted : parseKid olderToken = .ok "webconfig_key" ∧
    Rules.legacy.verify issuerKey 1700000000 olderToken = .ok olderClaims := by
  have hheader : (Base64.decode .url olderHeader).toOption.any (fun b =>
      readAlgorithm b == some "RS512" && readHeaderKid b == some (some "webconfig_key")) = true := by
    decide +kernel
  have hpayload : (Base64.decode .url olderPayload).toOption.any (readChecked · == some olderClaims) = true := by
    decide +kernel
  have hsignature : (Base64.decode .url olderSignature).toOption.any (fun b => issuerKey.rsa?.any fun k =>
      k.verify .sha512 (Bytes.ofText (olderHeader ++ "." ++ olderPayload)) b) = true := by
    decide +kernel
  obtain ⟨headerBytes, hheader, hnames, hfirst⟩ := decodeSegment_of_any hheader
  obtain ⟨payloadBytes, hpayload, hclaims, hsecond⟩ := decodeSegment_of_any hpayload
  obtain ⟨signatureBytes, hsignature, hgenuine, hlast⟩ := decodeSegment_of_any hsignature
  obtain ⟨halgorithm, hkid⟩ := Bool.and_eq_true_iff.mp hnames
  constructor
  · have hpart : readPart .header readHeaderKid olderHeader = .ok (some "webconfig_key") :=
      readPart_eq_ok hheader (beq_iff_eq.mp hkid)
    rw [parseKid, olderToken, segments_append hfirst hsecond hlast rfl rfl, ok_bind]
    simp only [hpart, ok_bind]
    rfl
  · rw [Rules.verify_eq_ok_iff]
    exact ⟨⟨rfl, splitLast_append hlast, splitLast_append hsecond, hheader, beq_iff_eq.mp halgorithm, rfl,
      hsignature, hgenuine, hpayload, beq_iff_eq.mp hclaims⟩, Rules.check_eq_ok_iff.mp rfl⟩

def unsignedToken : String := "eyJhbGciOiJub25lIn0.e30."

theorem unsignedToken_names : NamesAlgorithm unsignedToken "none" := by
  have hsegments : Text.split '.' unsignedToken = ["eyJhbGciOiJub25lIn0", "e30", ""] := by decide +kernel
  have hheader : decodeSegment "eyJhbGciOiJub25lIn0" = .ok (Bytes.ofText "\x7b\"alg\":\"none\"\x7d") := rfl
  have hmember : (Bytes.ofText "alg", Json.string (Bytes.ofText "none")) ∈
      [(Bytes.ofText "alg", Json.string (Bytes.ofText "none"))] := List.mem_singleton_self _
  exact ⟨hsegments, hheader, rfl, hmember, rfl, rfl⟩

/-- An authority that trusts the issuer, and a shared secret under another identifier. -/
def olderAuthority : Authority :=
  let store : TrustStore := .keyring ⟨⟨[("other", .secret [1, 0, 1]), ("webconfig_key", issuerKey)]⟩⟩
  ⟨store, .legacy, none, ⟨["webconfig_key"], []⟩, {}, {}⟩

/-- The token of the older generation is signed with RSA, a token that asks for no signature is refused, and a
shared secret accepts nothing. -/
theorem no_algorithm_confusion_for_older_token :
    RsaSigned VerifierKind.legacy.algorithms issuerKey olderToken ∧
    (∃ e, Rules.legacy.verify issuerKey 1700000000 unsignedToken = .error e) ∧
    Rules.legacy.verify (.secret [1, 0, 1]) 1700000000 olderToken = .error .algorithm ∧
    (∃ kid key, parseKid olderToken = .ok kid ∧ (olderAuthority.trustStore.resolve kid).1 = some key ∧
      RsaSigned VerifierKind.legacy.algorithms key olderToken) ∧
    ∃ e, (olderAuthority.verify 1700000000 unsignedToken .api none).1 = .error e := by
  obtain ⟨hsigned, -, hfamily, hauthority⟩ := no_algorithm_confusion .legacy none 1700000000 olderToken
  obtain ⟨-, hnamed, -, hauthority'⟩ := no_algorithm_confusion .legacy none 1700000000 unsignedToken
  obtain ⟨hkid, hverify⟩ := olderToken_accepted
  have hscreen : olderAuthority.screen olderToken .api none = .ok "webconfig_key" :=
    Authority.screen_eq_ok_iff.mpr ⟨hkid, List.mem_singleton_self _, olderClaims,
      Rules.readClaims_of_verify hkid hverify, .inl rfl, nofun⟩
  have haccepted : (olderAuthority.verify 1700000000 olderToken .api none).1 = .ok olderClaims :=
    Authority.verify_fst_eq_ok_iff.mpr ⟨"webconfig_key", issuerKey, hscreen, rfl, hverify⟩
  refine ⟨hsigned _ _ hverify, hnamed _ unsignedToken_names (by decide) _, ?_, ?_, ?_⟩
  · exact hfamily ⟨some "other", .octets "AQAB"⟩ "other" _ (by decide +kernel) nofun
  · exact (hauthority olderAuthority rfl .api none).1 _ haccepted
  · exact (hauthority' olderAuthority rfl .api none).2 _ unsignedToken_names (by decide)

end Token

end DeviceTrust
