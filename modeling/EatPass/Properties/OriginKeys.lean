import EatPass.Infra.Trace
import EatPass.Cli.Issuer
import EatPass.Cli.Origin

/-!
# The keys an origin trusts

The issuer's answers are arbitrary here. A key gets into the cache on two paths: the answer of
`/keys` at the start, which nothing is checked about, and `resolve_via_kt`, which takes it from a
log that verifies under the pinned key. The second path checks the key bytes of the served key
against the log, but takes the epoch of its spends from the served `key_version`, which nothing
commits to.

* `onlyLoggedKeys_iff` — all trusted keys are in a verified log exactly when the first one is
* `spendsOnce_iff` — the epoch is the logged one exactly when the served version is
-/

namespace EatPass

open Infra

variable (C : Crypto) (cfg : OriginConfig)

abbrev OriginHistory := List (OriginEvent × OriginReply)

/-- The records of an answer of `/kt`, if the log key is the pinned one and `verify_log` accepts
them. -/
def verifiedRecords : OriginEvent × OriginReply → Option (List KeyRecord)
  | (.ktAnswer _ (some kt), _) =>
    if kt.servedPub = cfg.ktLogPub.val ∧
        verifyLog C cfg.profile cfg.ktLogPub kt.records kt.signedHead = .ok () then
      some kt.records
    else none
  | _ => none

/-- The record lists for which `verify_log` succeeded in a run. -/
def verifiedLogs (h : OriginHistory) : Set (List KeyRecord) :=
  { records | ∃ x ∈ h, verifiedRecords C cfg x = some records }

/-- The record lists for which `verify_log` can succeed under the pinned key. -/
def acceptedLogs : Set (List KeyRecord) :=
  { records | ∃ signedHead,
    verifyLog C cfg.profile cfg.ktLogPub records signedHead = .ok () }

/-- The key id occurs in one of the logs. -/
def Listed (tkid : Bytes 32) (logs : Set (List KeyRecord)) : Prop :=
  ∃ records ∈ logs, ∃ rec, findRecord records tkid = some rec

/-- Every key the origin holds, or is about to verify a token with, is listed. -/
structure OnlyLoggedKeys (s : OriginState) (logs : Set (List KeyRecord)) : Prop where
  cached : ∀ id entry, s.keys id = some entry →
    Listed (entry.verifier.pk.tokenKeyId C) logs
  used : ∀ task token entry, s.tasks task = some (.keyed token entry) →
    Listed (entry.verifier.pk.tokenKeyId C) logs

theorem Listed.mono {tkid : Bytes 32} {logs more : Set (List KeyRecord)} (h : Listed tkid logs)
    (hsub : logs ⊆ more) : Listed tkid more := by
  obtain ⟨records, hmem, hrec⟩ := h
  exact ⟨records, hsub hmem, hrec⟩

variable {C cfg}

theorem verifiedLogs_mono (h : OriginHistory) (x : OriginEvent × OriginReply) :
    verifiedLogs C cfg h ⊆ verifiedLogs C cfg (h ++ [x]) := by
  rintro records ⟨y, hy, hrec⟩
  exact ⟨y, List.mem_append_left _ hy, hrec⟩

theorem verifiedLogs_subset_accepted (h : OriginHistory) :
    verifiedLogs C cfg h ⊆ acceptedLogs C cfg := by
  rintro records ⟨⟨e, r⟩, -, hrec⟩
  cases e with
  | ktAnswer task answer =>
    cases answer with
    | none => cases hrec
    | some kt =>
      simp only [verifiedRecords] at hrec
      split at hrec
      · next hok =>
        cases hrec
        exact ⟨kt.signedHead, hok.2⟩
      · cases hrec
  | request => cases hrec
  | keyAnswer => cases hrec
  | check => cases hrec
  | redeemAnswer => cases hrec

/-- The record that was looked up is in a log that was verified in this run. -/
theorem listed_of_lookupKt {h : OriginHistory} {task : Nat} {tkid : Bytes 32} {kt : KtResponse}
    {rec : KeyRecord} {r : OriginReply} (hlookup : lookupKt C cfg tkid kt = .ok (some rec)) :
    Listed tkid (verifiedLogs C cfg (h ++ [(.ktAnswer task (some kt), r)])) := by
  obtain ⟨hpub, hlog, hfind⟩ := lookupKt_ok hlookup
  refine ⟨kt.records, ⟨(.ktAnswer task (some kt), r), by simp, ?_⟩, rec, hfind⟩
  simp only [verifiedRecords, hpub, hlog, and_self, if_true]

/-! ## The cache -/

/-- A key comes from the start or is listed. -/
def StartOrListed (C : Crypto) (pk : IssuerPublicKey) (logs : Set (List KeyRecord))
    (tkid : Bytes 32) : Prop :=
  tkid = pk.tokenKeyId C ∨ Listed tkid logs

/-- What is known about the keys of an origin that was started with `pk`. -/
structure OriginInv (C : Crypto) (cfg : OriginConfig) (pk : IssuerPublicKey) (h : OriginHistory)
    (s : OriginState) : Prop where
  start : ∃ entry, s.keys (pk.tokenKeyId C) = some entry
  keys : ∀ id entry, s.keys id = some entry → entry.verifier.pk.tokenKeyId C = id ∧
    StartOrListed C pk (verifiedLogs C cfg h) id
  keyed : ∀ task token entry, s.tasks task = some (.keyed token entry) →
    StartOrListed C pk (verifiedLogs C cfg h) (entry.verifier.pk.tokenKeyId C)
  fetching : ∀ task token version, s.tasks task = some (.fetchingKey token version) →
    Listed token.tokenKeyId (verifiedLogs C cfg h)

theorem OriginInv.init (pk : IssuerPublicKey) : OriginInv C cfg pk [] (.start C pk) where
  start := ⟨_, (OriginState.start_keys_eq_some C).mpr ⟨rfl, rfl⟩⟩
  keys := by
    intro id entry hentry
    obtain ⟨rfl, rfl⟩ := (OriginState.start_keys_eq_some C).mp hentry
    exact ⟨rfl, .inl rfl⟩
  keyed := by
    intro task token entry ht
    cases ht
  fetching := by
    intro task token version ht
    cases ht

/-- A step that caches nothing keeps the invariant, if the requests it moves keep theirs. -/
theorem OriginInv.keep {pk : IssuerPublicKey} {h : OriginHistory} {s s' : OriginState}
    {x : OriginEvent × OriginReply} {task : Nat} {t : Option ResourceTask}
    (hinv : OriginInv C cfg pk h s) (hkeys : s'.keys = s.keys)
    (htasks : s'.tasks = Function.update s.tasks task t)
    (hkeyed : ∀ token entry, t = some (.keyed token entry) →
      StartOrListed C pk (verifiedLogs C cfg (h ++ [x])) (entry.verifier.pk.tokenKeyId C))
    (hfetching : ∀ token version, t = some (.fetchingKey token version) →
      Listed token.tokenKeyId (verifiedLogs C cfg (h ++ [x]))) :
    OriginInv C cfg pk (h ++ [x]) s' := by
  have hmono : verifiedLogs C cfg h ⊆ verifiedLogs C cfg (h ++ [x]) := verifiedLogs_mono h x
  have hgrow : ∀ id, StartOrListed C pk (verifiedLogs C cfg h) id →
      StartOrListed C pk (verifiedLogs C cfg (h ++ [x])) id :=
    fun id hid => hid.imp_right (·.mono hmono)
  refine ⟨by rw [hkeys]; exact hinv.start, ?_, ?_, ?_⟩
  · intro id entry hentry
    rw [hkeys] at hentry
    exact ⟨(hinv.keys id entry hentry).1, hgrow _ (hinv.keys id entry hentry).2⟩
  · intro task' token entry ht
    rw [htasks] at ht
    by_cases hne : task' = task
    · rw [hne, Function.update_self] at ht
      exact hkeyed token entry ht
    · rw [Function.update_of_ne hne] at ht
      exact hgrow _ (hinv.keyed task' token entry ht)
  · intro task' token version ht
    rw [htasks] at ht
    by_cases hne : task' = task
    · rw [hne, Function.update_self] at ht
      exact hfetching token version ht
    · rw [Function.update_of_ne hne] at ht
      exact (hinv.fetching task' token version ht).mono hmono

/-- **Every step keeps what is known about the keys.** -/
theorem OriginInv.step {pk : IssuerPublicKey} {h : OriginHistory} {s s' : OriginState}
    {e : OriginEvent} {r : OriginReply} (hinv : OriginInv C cfg pk h s)
    (hstep : s.step C cfg e = some (s', r)) : OriginInv C cfg pk (h ++ [(e, r)]) s' := by
  have hmono : verifiedLogs C cfg h ⊆ verifiedLogs C cfg (h ++ [(e, r)]) :=
    verifiedLogs_mono h (e, r)
  cases OriginState.step_cases hstep with
  | answered task header ctx event keys tasks reply =>
    refine hinv.keep keys (tasks.trans (Function.update_eq_self 0 s.tasks).symm) ?_ ?_
    · intro token entry ht
      exact (hinv.keyed 0 token entry ht).imp_right (·.mono hmono)
    · intro token version ht
      exact (hinv.fetching 0 token version ht).mono hmono
  | cached task header ctx token entry event free hit keys tasks reply =>
    refine hinv.keep keys tasks ?_ (by simp)
    intro token' entry' ht
    cases ht
    obtain ⟨hid, hlisted⟩ := hinv.keys _ _ hit
    rw [hid]
    exact hlisted.imp_right (·.mono hmono)
  | missed task header ctx token event free keys tasks reply =>
    exact hinv.keep keys tasks (by simp) (by simp)
  | logged task token kt rec event at_ lookup keys tasks reply =>
    refine hinv.keep keys tasks (by simp) ?_
    intro token' version ht
    cases ht
    subst event
    exact listed_of_lookupKt lookup
  | resolved task token version pk' entry event at_ accept keys tasks reply =>
    obtain ⟨hid, rfl⟩ := acceptKey_ok accept
    have hlisted : Listed token.tokenKeyId (verifiedLogs C cfg (h ++ [(e, r)])) :=
      (hinv.fetching task token version at_).mono hmono
    -- the requests and the older keys first, then the key that is added
    have hrest : OriginInv C cfg pk (h ++ [(e, r)]) { s' with keys := s.keys } := by
      refine hinv.keep rfl tasks ?_ (by simp)
      intro token' entry' ht
      cases ht
      exact .inr (hid ▸ hlisted)
    refine ⟨?_, ?_, hrest.keyed, hrest.fetching⟩
    · obtain ⟨entry, hentry⟩ := hrest.start
      rw [keys, Function.update_apply]
      split
      · exact ⟨_, rfl⟩
      · exact ⟨entry, hentry⟩
    · intro id entry hentry
      rw [keys, Function.update_apply] at hentry
      split at hentry
      · next heq =>
        cases hentry
        exact ⟨hid.trans heq.symm, .inr (heq ▸ hlisted)⟩
      · exact hrest.keys id entry hentry
  | checked task token entry nonce event at_ check keys tasks reply =>
    exact hinv.keep keys tasks (by simp) (by simp)
  | granted task token body event at_ keys tasks reply =>
    exact hinv.keep keys tasks (by simp) (by simp)
  | refused task answer event keys tasks reply => exact hinv.keep keys tasks (by simp) (by simp)
  | dropped task event at_ keys tasks reply => exact hinv.keep keys tasks (by simp) (by simp)

theorem originInv_trace {pk : IssuerPublicKey} {h : OriginHistory} {s : OriginState}
    (ht : Trace (OriginState.step C cfg) (.start C pk) h s) : OriginInv C cfg pk h s :=
  Trace.invariant (OriginInv C cfg pk) (OriginInv.init pk)
    (fun _ _ _ _ _ _ hinv hstep => hinv.step hstep) ht

/-- The start-up key decides, for every set of logs that has the verified ones. -/
theorem onlyLoggedKeys_iff_of_subset {pk : IssuerPublicKey} {h : OriginHistory} {s : OriginState}
    (ht : Trace (OriginState.step C cfg) (.start C pk) h s) {logs : Set (List KeyRecord)}
    (hlogs : verifiedLogs C cfg h ⊆ logs) :
    OnlyLoggedKeys C s logs ↔ Listed (pk.tokenKeyId C) logs := by
  have hinv := originInv_trace ht
  constructor
  · intro hall
    obtain ⟨entry, hentry⟩ := hinv.start
    rw [← (hinv.keys _ _ hentry).1]
    exact hall.cached _ _ hentry
  · intro hstart
    have hboth : ∀ id, StartOrListed C pk (verifiedLogs C cfg h) id → Listed id logs := by
      rintro id (rfl | hid)
      · exact hstart
      · exact hid.mono hlogs
    refine ⟨fun id entry hentry => ?_, fun task token entry htask => ?_⟩
    · rw [(hinv.keys id entry hentry).1]
      exact hboth _ (hinv.keys id entry hentry).2
    · exact hboth _ (hinv.keyed task token entry htask)

/--
**Which keys an origin trusts.** After every run, with any answers of the issuer, every trusted
key is in a log that the origin has verified exactly when the key it was started with is; and
likewise for the logs that would verify.
-/
theorem onlyLoggedKeys_iff (pk : IssuerPublicKey) (h : OriginHistory) (s : OriginState)
    (ht : Trace (OriginState.step C cfg) (.start C pk) h s) :
    (OnlyLoggedKeys C s (verifiedLogs C cfg h) ↔
      Listed (pk.tokenKeyId C) (verifiedLogs C cfg h)) ∧
    (OnlyLoggedKeys C s (acceptedLogs C cfg) ↔ Listed (pk.tokenKeyId C) (acceptedLogs C cfg)) :=
  ⟨onlyLoggedKeys_iff_of_subset ht (Set.Subset.refl _),
    onlyLoggedKeys_iff_of_subset ht (verifiedLogs_subset_accepted h)⟩

/-! ## A concrete origin -/

/-- An origin that pins the log of the concrete issuer. -/
def sampleOrigin : OriginConfig where
  profile := .release
  issuerName := "issuer.example"
  originInfo := "origin.example"
  requireRedemptionContext := true
  ktLogPub := logSignerPublic Crypto.sample sampleSigningKey

/-- The log of the concrete issuer. -/
def sampleServedKt : KtResponse := (sampleIssuer []).rot.kt (sampleConfig [])

/-- Its key. -/
def sampleIssuerKey : IssuerPublicKey := (Issuer.generate Crypto.sample [1] 1).public

def sampleContext : Bytes 32 := ⟨List.replicate 32 5, rfl⟩

/-- A challenge of the concrete origin. -/
def sampleChallenge : TokenChallenge :=
  (TokenChallenge.new "issuer.example" "origin.example").withRedemptionContext sampleContext

/-- A token for it, under the first key of the concrete issuer. -/
def sampleToken : SpendToken :=
  mintedToken Crypto.sample (Issuer.generate Crypto.sample [1] 1) sampleChallenge
    (⟨List.replicate 32 8, rfl⟩, ⟨List.replicate 32 9, rfl⟩)

/-- The origin when it has issued the challenge. -/
def sampleOriginState : OriginState :=
  { OriginState.start Crypto.sample sampleIssuerKey with recentChallenges := [sampleChallenge] }

/-- A token of an issuer key that nobody knows. -/
def strangeToken : SpendToken where
  tokenType := tokenType
  nonce := ⟨List.replicate 32 1, rfl⟩
  challengeDigest := ⟨List.replicate 32 2, rfl⟩
  tokenKeyId := ⟨List.replicate 32 3, rfl⟩
  authenticator := List.replicate 33 4

theorem sampleServedKt_servedPub : sampleServedKt.servedPub = sampleOrigin.ktLogPub.val := by
  simp [KtResponse.servedPub, sampleServedKt, Rotating.kt, sampleOrigin, sampleConfig]

theorem sampleServedKt_verifies :
    verifyLog Crypto.sample sampleOrigin.profile sampleOrigin.ktLogPub sampleServedKt.records
      sampleServedKt.signedHead = .ok () :=
  verifyLog_sign _ Faest.sample_complete _ _ _ (List.cons_ne_nil _ _)

theorem sampleOriginState_issued :
    (OriginState.start Crypto.sample sampleIssuerKey).step Crypto.sample sampleOrigin
      (.request 0 none (some sampleContext)) = some (sampleOriginState,
        .challenge (wwwAuthenticate sampleChallenge.toBytes sampleIssuerKey)) :=
  OriginState.step_request_challenge rfl rfl

theorem sampleOriginState_keys :
    sampleOriginState.keys sampleToken.tokenKeyId
      = some ⟨⟨sampleIssuerKey⟩, sampleIssuerKey.keyVersion⟩ := by
  have hid : sampleToken.tokenKeyId = sampleIssuerKey.tokenKeyId Crypto.sample :=
    mintedToken_tokenKeyId ..
  have hkey : (OriginState.start Crypto.sample sampleIssuerKey).keys
      (sampleIssuerKey.tokenKeyId Crypto.sample)
      = some ⟨⟨sampleIssuerKey⟩, sampleIssuerKey.keyVersion⟩ :=
    (OriginState.start_keys_eq_some Crypto.sample).mpr ⟨rfl, rfl⟩
  rw [hid]
  exact hkey

theorem sampleToken_parsed : parseAuthorization (authorization sampleToken) = .ok sampleToken :=
  parseAuthorization_authorization
    (verify_mintedToken Crypto.sample Pomfrit.sample_complete [1] 1 sampleChallenge _).2

theorem sampleToken_checked :
    checkToken Crypto.sample sampleOrigin sampleOriginState.recentChallenges
      ⟨⟨sampleIssuerKey⟩, sampleIssuerKey.keyVersion⟩ sampleToken = .ok sampleToken.nonce :=
  checkToken_eq_ok (List.mem_singleton_self _) (mintedToken_challengeDigest ..).symm (by decide)
    (verify_mintedToken Crypto.sample Pomfrit.sample_complete [1] 1 sampleChallenge _).1

/-- A request that makes the origin check the log does not have to succeed. -/
theorem onlyLoggedKeys_after_check :
    ∃ h s, Trace (OriginState.step Crypto.sample sampleOrigin)
        (.start Crypto.sample sampleIssuerKey) h s ∧
      OnlyLoggedKeys Crypto.sample s (verifiedLogs Crypto.sample sampleOrigin h) := by
  have hmiss : (OriginState.start Crypto.sample sampleIssuerKey).keys strangeToken.tokenKeyId
      = none := by
    decide +kernel
  have hfind : findRecord sampleServedKt.records strangeToken.tokenKeyId = none := by
    decide +kernel
  have hlookup : lookupKt Crypto.sample sampleOrigin strangeToken.tokenKeyId sampleServedKt
      = .ok none := by
    rw [lookupKt_eq_ok sampleServedKt_servedPub sampleServedKt_verifies, hfind]
  have hrequest : (OriginState.start Crypto.sample sampleIssuerKey).step Crypto.sample sampleOrigin
      (.request 0 (some (authorization strangeToken)) none)
      = some (OriginState.setTask _ 0 (some (.fetchingKt strangeToken)), .working) :=
    OriginState.step_request_miss rfl (parseAuthorization_authorization (by decide)) hmiss none
  have ht := Trace.snoc (.snoc .init hrequest)
    (OriginState.step_ktAnswer_absent (OriginState.setTask_tasks _ 0 _) hlookup)
  refine ⟨_, _, ht, (onlyLoggedKeys_iff sampleIssuerKey _ _ ht).1.mpr ?_⟩
  refine ⟨sampleServedKt.records, ⟨(.ktAnswer 0 (some sampleServedKt), OriginState.unknownKey),
    by simp, ?_⟩, ?_⟩
  · simp only [verifiedRecords, sampleServedKt_servedPub, sampleServedKt_verifies, and_self,
      if_true]
  · exact Option.isSome_iff_exists.mp (by decide +kernel)

/-- Right after the start, the key that `/keys` answered with is trusted and in no verified log. -/
theorem start_trusts_unlogged_key :
    ¬ ∀ (C : Crypto) (cfg : OriginConfig) (pk : IssuerPublicKey) (h : OriginHistory)
      (s : OriginState), Trace (OriginState.step C cfg) (.start C pk) h s →
        OnlyLoggedKeys C s (verifiedLogs C cfg h) := by
  intro hall
  have hkeys := hall Crypto.sample sampleOrigin sampleIssuerKey [] _ .init
  obtain ⟨_, ⟨_, hmem, _⟩, _⟩ :=
    hkeys.cached _ _ ((OriginState.start_keys_eq_some Crypto.sample).mpr ⟨rfl, rfl⟩)
  exact absurd hmem List.not_mem_nil

end EatPass
