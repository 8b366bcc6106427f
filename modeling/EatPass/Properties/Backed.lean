import Mathlib.Data.List.DropRight
import EatPass.Properties.OriginKeys

/-!
# Every access is backed

An origin remembers the last 64 challenges, and handles its requests in parallel: between the
header of a request and its answer other requests issue challenges and resolve keys. Still, an
answer 200 has everything behind it that the origin promises: a token that was read from the
header of that request, a challenge that was remembered when it was looked up, a key that hashes
to the `token_key_id`, a proof that verifies, and an acceptance by the redeemer.

* `recent_eq` — what is remembered is the end of the list of issued challenges
* `granted_backed` — the result
-/

namespace EatPass

open Infra

variable {C : Crypto} {cfg : OriginConfig}

/-! ## The challenge window -/

/-- The challenge that a step has issued. -/
def issuedBy (cfg : OriginConfig) : OriginEvent × OriginReply → Option TokenChallenge
  | (.request _ _ ctx, .challenge _) =>
    match freshChallenge cfg ctx with
    | .ok ch => some ch
    | _ => none
  | _ => none

/-- The challenges that a run has issued, oldest first. -/
def issued (cfg : OriginConfig) (h : OriginHistory) : List TokenChallenge :=
  h.filterMap (issuedBy cfg)

theorem issued_snoc (h : OriginHistory) (x : OriginEvent × OriginReply) :
    issued cfg (h ++ [x]) = issued cfg h ++ (issuedBy cfg x).toList := by
  rw [issued, List.filterMap_append]
  cases hx : issuedBy cfg x <;> simp [issued, hx]

/-- Pushing onto the end of a list gives the end of the longer list. -/
theorem pushRecent_rtake (all : List TokenChallenge) (ch : TokenChallenge) :
    pushRecent (all.rtake maxRecentChallenges) ch = (all ++ [ch]).rtake maxRecentChallenges := by
  simp only [pushRecent, List.rtake, maxRecentChallenges]
  by_cases hlen : all.length < 64
  · rw [show all.length - 64 = 0 by omega, List.drop_zero]
  · have hdrop : (all.drop (all.length - 64)).length = 64 := by
      rw [List.length_drop]
      omega
    have hcount : (all.drop (all.length - 64) ++ [ch]).length - 64 = 1 := by
      rw [List.length_append, hdrop]
      rfl
    have htotal : (all ++ [ch]).length - 64 = (all.length - 64) + 1 := by
      rw [List.length_append, List.length_singleton]
      omega
    rw [hcount, htotal, List.drop_append_of_le_length (by omega), List.drop_drop,
      List.drop_append_of_le_length (by omega)]

/-- A step keeps the window on the issued challenges. -/
theorem recent_step {h : OriginHistory} {s s' : OriginState} {e : OriginEvent} {r : OriginReply}
    (hinv : s.recentChallenges = (issued cfg h).rtake maxRecentChallenges)
    (hstep : s.step C cfg e = some (s', r)) :
    s'.recentChallenges = (issued cfg (h ++ [(e, r)])).rtake maxRecentChallenges := by
  rw [issued_snoc]
  rcases OriginState.step_recent hstep with ⟨hsame, hreply⟩ | ⟨task, header, ctx, ch, rfl, hch,
    hpush, rfl⟩
  · have hnone : issuedBy cfg (e, r) = none := by
      cases e <;> cases r <;> first | rfl | exact absurd rfl (hreply _)
    rw [hnone, Option.toList_none, List.append_nil, hsame, hinv]
  · have hsome : issuedBy cfg (.request task header ctx,
        .challenge (wwwAuthenticate ch.toBytes s.advertisedPk)) = some ch := by
      simp only [issuedBy, hch]
    rw [hsome, Option.toList_some, hpush, hinv, pushRecent_rtake]

/-- **What is remembered is the end of the list of issued challenges.** -/
theorem recent_eq {pk : IssuerPublicKey} {h : OriginHistory} {s : OriginState}
    (ht : Trace (OriginState.step C cfg) (.start C pk) h s) :
    s.recentChallenges = (issued cfg h).rtake maxRecentChallenges :=
  Trace.invariant (fun h s => s.recentChallenges = (issued cfg h).rtake maxRecentChallenges)
    rfl (fun _ _ _ _ _ _ hinv hstep => recent_step hinv hstep) ht

/-! ## What stands behind an answer -/

/-- The header of a request has been read as the token. -/
def Requested (h : OriginHistory) (task : Nat) (token : SpendToken) : Prop :=
  ∃ before header ctx after,
    h = before ++ (.request task (some header) ctx, .working) :: after ∧
      parseAuthorization header = .ok token

/-- The token is valid under the key of the entry, for a remembered challenge. -/
structure ValidToken (C : Crypto) (cfg : OriginConfig) (recent : List TokenChallenge)
    (entry : KeyEntry) (token : SpendToken) (ch : TokenChallenge) : Prop where
  tokenType : token.tokenType = 0x4550
  remembered : ch ∈ recent
  digest : token.challengeDigest = ch.digest C
  context : cfg.requireRedemptionContext = true → ch.redemptionContext.length = 32
  keyId : token.tokenKeyId = entry.verifier.pk.tokenKeyId C
  proof : ∃ additionalR proof, decodeAuthenticator token.authenticator = .ok (additionalR, proof) ∧
    C.pomfrit.verify (C.pomfrit.expandPk entry.verifier.pk.key)
      (tokenInput token.nonce (ch.digest C) token.tokenKeyId) proof additionalR = true

/-- A request has been checked: it was read before, and its token was valid in the state in which
it was checked. -/
def Checked (C : Crypto) (cfg : OriginConfig) (pk : IssuerPublicKey) (h : OriginHistory)
    (task : Nat) (token : SpendToken) (entry : KeyEntry) : Prop :=
  ∃ before after s, h = before ++ (.check task, .working) :: after ∧
    Requested before task token ∧ Trace (OriginState.step C cfg) (.start C pk) before s ∧
    s.tasks task = some (.keyed token entry) ∧
    ∃ ch, ValidToken C cfg s.recentChallenges entry token ch

/-- An answer 200: the request was checked, and the redeemer has answered 200 to a body in which it
reads the epoch of the entry and the nonce of the token. -/
def Backed (C : Crypto) (cfg : OriginConfig) (pk : IssuerPublicKey) (h : OriginHistory)
    (e : OriginEvent) (token : SpendToken) : Prop :=
  ∃ task entry s body, e = .redeemAnswer task (some .ok) ∧ Checked C cfg pk h task token entry ∧
    Trace (OriginState.step C cfg) (.start C pk) h s ∧
    s.tasks task = some (.redeeming token body) ∧
    body.keyEpoch = entry.epoch ∧ body.readNonce = some token.nonce

theorem Requested.snoc {h : OriginHistory} {task : Nat} {token : SpendToken}
    (hreq : Requested h task token) (x : OriginEvent × OriginReply) :
    Requested (h ++ [x]) task token := by
  obtain ⟨before, header, ctx, after, rfl, hparse⟩ := hreq
  exact ⟨before, header, ctx, after ++ [x], by rw [List.append_assoc]; rfl, hparse⟩

theorem Checked.snoc {pk : IssuerPublicKey} {h : OriginHistory} {task : Nat} {token : SpendToken}
    {entry : KeyEntry} (hchecked : Checked C cfg pk h task token entry)
    (x : OriginEvent × OriginReply) : Checked C cfg pk (h ++ [x]) task token entry := by
  obtain ⟨before, after, s, rfl, hrest⟩ := hchecked
  exact ⟨before, after ++ [x], s, by rw [List.append_assoc]; rfl, hrest⟩

/-- **What the checks between the key and the redeemer establish.** -/
theorem validToken_of_checkToken {recent : List TokenChallenge} {entry : KeyEntry}
    {token : SpendToken} {nonce : Bytes 32}
    (h : checkToken C cfg recent entry token = .ok nonce) :
    (∃ ch, ValidToken C cfg recent entry token ch) ∧ nonce = token.nonce := by
  simp only [checkToken, Outcome.bind_eq_ok, Outcome.ofOption_eq_ok, Outcome.require_eq_ok,
    Outcome.mapErr_eq_ok] at h
  obtain ⟨ch, hfind, _, hctx, hverify⟩ := h
  simp only [Verifier.verify, schemeVerify, Outcome.bind_eq_ok, Outcome.require_eq_ok,
    Outcome.mapErr_eq_ok, Outcome.pure_eq_ok, Outcome.ok.injEq] at hverify
  obtain ⟨_, htype, _, hdigest, _, hkey, _, _, ⟨additionalR, proof⟩, hdecode, _, hproof, hnonce⟩ :=
    hverify
  refine ⟨⟨ch, htype, List.mem_of_find?_eq_some hfind, hdigest, ?_, hkey, ?_⟩, hnonce.symm⟩
  · intro hreq
    simpa [TokenChallenge.hasRedemptionContext] using hctx hreq
  · exact ⟨additionalR, proof, hdecode, by rw [← hdigest]; exact hproof⟩

/-! ## Runs -/

/-- What stands behind a request in flight. -/
def TaskBacked (C : Crypto) (cfg : OriginConfig) (pk : IssuerPublicKey) (h : OriginHistory)
    (task : Nat) : ResourceTask → Prop
  | .fetchingKt token => Requested h task token
  | .fetchingKey token _ => Requested h task token
  | .keyed token _ => Requested h task token
  | .redeeming token body =>
    ∃ entry, body.keyEpoch = entry.epoch ∧ body.readNonce = some token.nonce ∧
      Checked C cfg pk h task token entry

theorem TaskBacked.snoc {pk : IssuerPublicKey} {h : OriginHistory} {task : Nat} {t : ResourceTask}
    (ht : TaskBacked C cfg pk h task t) (x : OriginEvent × OriginReply) :
    TaskBacked C cfg pk (h ++ [x]) task t := by
  cases t with
  | fetchingKt token => exact Requested.snoc ht x
  | fetchingKey token version => exact Requested.snoc ht x
  | keyed token entry => exact Requested.snoc ht x
  | redeeming token body =>
    obtain ⟨entry, hepoch, hnonce, hchecked⟩ := ht
    exact ⟨entry, hepoch, hnonce, hchecked.snoc x⟩

/-- Everything stands behind the requests in flight. -/
def AllBacked (C : Crypto) (cfg : OriginConfig) (pk : IssuerPublicKey) (h : OriginHistory)
    (s : OriginState) : Prop :=
  ∀ task t, s.tasks task = some t → TaskBacked C cfg pk h task t

/-- A step that moves one request. -/
theorem AllBacked.keep {pk : IssuerPublicKey} {h : OriginHistory} {s s' : OriginState}
    {x : OriginEvent × OriginReply} {task : Nat} {t : Option ResourceTask}
    (hinv : AllBacked C cfg pk h s) (htasks : s'.tasks = Function.update s.tasks task t)
    (hnew : ∀ t', t = some t' → TaskBacked C cfg pk (h ++ [x]) task t') :
    AllBacked C cfg pk (h ++ [x]) s' := by
  intro task' t' ht'
  rw [htasks, Function.update_apply] at ht'
  split at ht'
  · next heq =>
    rw [heq]
    exact hnew t' ht'
  · exact (hinv task' t' ht').snoc x

/-- A request whose header was just read. -/
theorem requested_of_step {h : OriginHistory} {s s' : OriginState} {task : Nat}
    {header : Option String} {ctx : Option (Bytes 32)}
    (hstep : s.step C cfg (.request task header ctx) = some (s', .working)) :
    ∃ token, Requested (h ++ [(.request task header ctx, .working)]) task token ∧
      (s'.tasks task = some (.fetchingKt token) ∨
        ∃ entry, s'.tasks task = some (.keyed token entry)) := by
  obtain ⟨text, token, rfl, hparse, htask⟩ := OriginState.step_request_working hstep
  exact ⟨token, ⟨h, text, ctx, [], rfl, hparse⟩, htask⟩

/-- **A step leaves everything behind the requests in flight.** -/
theorem AllBacked.step {pk : IssuerPublicKey} {h : OriginHistory} {s s' : OriginState}
    {e : OriginEvent} {r : OriginReply}
    (ht : Trace (OriginState.step C cfg) (.start C pk) h s) (hinv : AllBacked C cfg pk h s)
    (hstep : s.step C cfg e = some (s', r)) : AllBacked C cfg pk (h ++ [(e, r)]) s' := by
  cases OriginState.step_cases hstep with
  | answered task header ctx event keys tasks reply =>
    intro task' t' ht'
    rw [tasks] at ht'
    exact (hinv task' t' ht').snoc _
  | cached task header ctx token entry event free hit keys tasks reply =>
    subst event reply
    refine hinv.keep tasks ?_
    rintro t' ⟨⟩
    obtain ⟨token', hreq, htask⟩ := requested_of_step (h := h) hstep
    rw [tasks, Function.update_self] at htask
    rcases htask with htask | ⟨entry', htask⟩
    · cases htask
    · cases htask
      exact hreq
  | missed task header ctx token event free keys tasks reply =>
    subst event reply
    refine hinv.keep tasks ?_
    rintro t' ⟨⟩
    obtain ⟨token', hreq, htask⟩ := requested_of_step (h := h) hstep
    rw [tasks, Function.update_self] at htask
    rcases htask with htask | ⟨entry', htask⟩
    · cases htask
      exact hreq
    · cases htask
  | logged task token kt rec event at_ lookup keys tasks reply =>
    refine hinv.keep tasks ?_
    rintro t' ⟨⟩
    exact Requested.snoc (hinv task _ at_) _
  | resolved task token version pk' entry event at_ accept keys tasks reply =>
    refine hinv.keep tasks ?_
    rintro t' ⟨⟩
    exact Requested.snoc (hinv task _ at_) _
  | checked task token entry nonce event at_ check keys tasks reply =>
    subst event reply
    obtain ⟨hvalid, rfl⟩ := validToken_of_checkToken check
    refine hinv.keep tasks ?_
    rintro t' ⟨⟩
    exact ⟨entry, rfl, readNonce_spendBody .., h, [], s, rfl, hinv task _ at_, ht, at_, hvalid⟩
  | granted task token body event at_ keys tasks reply => exact hinv.keep tasks (by simp)
  | refused task answer event keys tasks reply => exact hinv.keep tasks (by simp)
  | dropped task event at_ keys tasks reply => exact hinv.keep tasks (by simp)

theorem allBacked_trace {pk : IssuerPublicKey} {h : OriginHistory} {s : OriginState}
    (ht : Trace (OriginState.step C cfg) (.start C pk) h s) : AllBacked C cfg pk h s := by
  refine Trace.invariant (AllBacked C cfg pk) ?_
    (fun _ _ _ _ _ ht hinv hstep => hinv.step ht hstep) ht
  intro task t ht
  cases ht

/-- Only an answer of the redeemer grants access, and to the request that has asked it. -/
theorem backed_of_step {pk : IssuerPublicKey} {h : OriginHistory} {s s' : OriginState}
    {e : OriginEvent} {token : SpendToken}
    (ht : Trace (OriginState.step C cfg) (.start C pk) h s)
    (hstep : s.step C cfg e = some (s', .granted token)) : Backed C cfg pk h e token := by
  cases OriginState.step_cases hstep with
  | answered task header ctx event keys tasks reply => exact absurd rfl (reply token)
  | cached task header ctx token' entry event free hit keys tasks reply => cases reply
  | missed task header ctx token' event free keys tasks reply => cases reply
  | logged task token' kt rec event at_ lookup keys tasks reply => cases reply
  | resolved task token' version pk' entry event at_ accept keys tasks reply => cases reply
  | checked task token' entry nonce event at_ check keys tasks reply => cases reply
  | granted task token' body event at_ keys tasks reply =>
    cases reply
    obtain ⟨entry, hepoch, hnonce, hchecked⟩ := allBacked_trace ht task _ at_
    exact ⟨task, entry, s, body, event, hchecked, ht, at_, hepoch, hnonce⟩
  | refused task answer event keys tasks reply => exact absurd rfl (reply token)
  | dropped task event at_ keys tasks reply => exact absurd rfl (reply token)

/--
**Every answer 200 is backed.** In every run of an origin, with any interleaving of its requests
and any answers of the other services, the remembered challenges are the last 64 of the issued
ones in order, and every answer 200 was given to a request whose token was read from its header,
was valid for a remembered challenge when it was checked, and was accepted by the redeemer.
-/
theorem granted_backed (pk : IssuerPublicKey) (h : OriginHistory) (s : OriginState)
    (ht : Trace (OriginState.step C cfg) (.start C pk) h s) :
    s.recentChallenges = (issued cfg h).rtake 64 ∧
      ∀ before e token after, h = before ++ (e, .granted token) :: after →
        Backed C cfg pk before e token := by
  refine ⟨recent_eq ht, ?_⟩
  rintro before e token after rfl
  obtain ⟨s₁, s₂, hbefore, hstep, -⟩ := Trace.split_iff.mp ht
  exact backed_of_step hbefore hstep

/-- A challenge, a request with a token for it, and access. -/
theorem granted_backed_sample :
    ∃ h s before e, Trace (OriginState.step Crypto.sample sampleOrigin)
        (.start Crypto.sample sampleIssuerKey) h s ∧
      h = before ++ [(e, .granted sampleToken)] ∧ s.recentChallenges = [sampleChallenge] ∧
      Backed Crypto.sample sampleOrigin sampleIssuerKey before e sampleToken := by
  have hrequest : sampleOriginState.step Crypto.sample sampleOrigin
      (.request 0 (some (authorization sampleToken)) none)
      = some (sampleOriginState.setTask 0
        (some (.keyed sampleToken ⟨⟨sampleIssuerKey⟩, sampleIssuerKey.keyVersion⟩)), .working) :=
    OriginState.step_request_hit rfl sampleToken_parsed sampleOriginState_keys none
  have ht := Trace.snoc (.snoc (.snoc (.snoc .init sampleOriginState_issued) hrequest)
    (OriginState.step_check_passed (OriginState.setTask_tasks _ 0 _) sampleToken_checked))
    (OriginState.step_redeemAnswer_ok (OriginState.setTask_tasks _ 0 _))
  exact ⟨_, _, _, _, ht, rfl, rfl,
    (granted_backed sampleIssuerKey _ _ ht).2 _ _ sampleToken [] rfl⟩

end EatPass
