import Mathlib.Algebra.Order.BigOperators.Group.Finset
import EatPass.Cli.IssuerTasks
import EatPass.Infra.Matched
import EatPass.Properties.Quota

/-!
# Signatures of an issuer at work

The issuer handles any number of `sign` requests at once, between the steps of rotations.

* `sign_tasks_linearization` — what the requests see is explained by a process whose `sign` is one
  step
* `sign_tasks_quota` — with the in-memory limiter, no attestation identity gets more blind
  signatures than the cap allows for the epochs in which the limiter was asked
-/

namespace EatPass

open Infra

variable {C : Crypto}

abbrev IssuerMark := Mark IssuerCall IssuerEvent IssuerReply

/--
**Requests of the issuer are linearizable.** However the `sign` handlers, the rotations and the
other requests overlap, what they see is what some order of them, each in one piece and respecting
who had finished before whom was started, would have shown.
-/
theorem sign_tasks_linearization {cfg : IssuerConfig C} {proc : IssuerProc cfg}
    {h : List (IssuerTaskEvent × IssuerMark)} {s : IssuerTasks cfg}
    (ht : Trace IssuerTasks.step (.start proc) h s) :
    ∃ q, Linearization IssuerEvent.call IssuerProc.step proc (h.map Prod.snd) q :=
  ⟨_, (IssuerTasks.implements cfg).linearization (fun _ _ hx => by cases hx) (fun _ => rfl) ht⟩

/-! ## The quota of a process -/

section Quota

variable (lim : LimiterConfig)

/-- The configuration with the in-memory limiter. -/
def IssuerConfig.withMemory (cfg : IssuerConfig C) : IssuerConfig C :=
  { cfg with limiter := inMemoryRateLimiter lim }

/-- The blind signatures that a step has returned, with the identity and the epoch they are charged
to. -/
def signedIn (json : AuthorizationJson) :
    IssuerEvent × IssuerReply → Option ((UInt64 × List UInt8) × Nat)
  | (.sign body _ limiterNow, .sign (.ok resp)) =>
    match decodeAuthorization json body.authorizationB64 with
    | .ok auth =>
      some ((InMemoryRateLimiter.currentEpoch lim limiterNow, auth.rateLimitId),
        resp.blindSigs.length)
    | _ => none
  | _ => none

/-- What a step adds to the blind signatures charged to an identity and an epoch. -/
def signedAs (json : AuthorizationJson) (key : UInt64 × List UInt8)
    (x : IssuerEvent × IssuerReply) : Nat :=
  match signedIn lim json x with
  | some (k, n) => if k = key then n else 0
  | none => 0

/-- The blind signatures charged to an identity and an epoch. -/
def signedFor (json : AuthorizationJson) (key : UInt64 × List UInt8)
    (h : List (IssuerEvent × IssuerReply)) : Nat :=
  (h.map (signedAs lim json key)).sum

variable {lim}

theorem signedFor_snoc (json : AuthorizationJson) (key : UInt64 × List UInt8)
    (h : List (IssuerEvent × IssuerReply)) (x : IssuerEvent × IssuerReply) :
    signedFor lim json key (h ++ [x]) = signedFor lim json key h + signedAs lim json key x := by
  simp only [signedFor, List.map_append, List.sum_append, List.map_cons, List.map_nil,
    List.sum_cons, List.sum_nil, Nat.add_zero]

/-- Calls of `issue_authorized_with_limit` account for what the process has signed. -/
def Accounted (lim : LimiterConfig) (C : Crypto) (json : AuthorizationJson)
    (h : List (IssuerEvent × IssuerReply)) (limiter : InMemoryRateLimiter) : Prop :=
  ∃ k : IssueHistory C, QuotaInv lim k limiter ∧
    ∀ key, signedFor lim json key h = returned lim k key

variable {cfg : IssuerConfig C}

/-- A step that returns no signature and leaves the limiter alone. -/
theorem Accounted.keep {json : AuthorizationJson} {h : List (IssuerEvent × IssuerReply)}
    {limiter : InMemoryRateLimiter} {x : IssuerEvent × IssuerReply}
    (hinv : Accounted lim C json h limiter) (hx : signedIn lim json x = none) :
    Accounted lim C json (h ++ [x]) limiter := by
  obtain ⟨k, hk, hsum⟩ := hinv
  refine ⟨k, hk, fun key => ?_⟩
  rw [signedFor_snoc, hsum, signedAs, hx]
  rfl

/-- The limiter is changed by `sign` only, and only `sign` returns signatures. -/
theorem IssuerProc.step_not_sign {p p' : IssuerProc cfg} {e : IssuerEvent} {r : IssuerReply}
    (h : p.step e = some (p', r)) (he : ¬ ∃ body now limiterNow, e = .sign body now limiterNow)
    (json : AuthorizationJson) : p'.limiter = p.limiter ∧ signedIn lim json (e, r) = none := by
  cases e with
  | keys => cases h; exact ⟨rfl, rfl⟩
  | keysVersion version => cases h; exact ⟨rfl, rfl⟩
  | kt => cases h; exact ⟨rfl, rfl⟩
  | sign body now limiterNow => exact absurd ⟨body, now, limiterNow, rfl⟩ he
  | rotate task header => exact ⟨by grind [IssuerProc.step], rfl⟩
  | generate task coins now => exact ⟨by grind [IssuerProc.step], rfl⟩
  | write task => exact ⟨by grind [IssuerProc.step], rfl⟩

/-- A handler calls `issue_authorized_with_limit`, or refuses and leaves the limiter alone. -/
theorem IssuerConfig.sign_withMemory (lim : LimiterConfig) (cfg : IssuerConfig C) (rot : Rotating)
    (limiter : InMemoryRateLimiter) (body : SignBody) (now limiterNow : UInt64) :
    (∃ auth, decodeAuthorization cfg.json body.authorizationB64 = .ok auth ∧
      ∀ result, IssueCall.step lim limiter
          ⟨rot.current, cfg.attesterPub, body.req, auth, now, limiterNow⟩ = some result →
        (cfg.withMemory lim).sign rot limiter body now limiterNow
          = (result.1, result.2.mapErr GateError.reply)) ∨
      ∃ r, (∀ resp, r ≠ .ok resp) ∧
        (cfg.withMemory lim).sign rot limiter body now limiterNow = (limiter, r) := by
  cases hdec : decodeAuthorization cfg.json body.authorizationB64 with
  | ok auth =>
    refine .inl ⟨auth, rfl, fun result hresult => ?_⟩
    cases hresult
    simp only [sign, withMemory, hdec]
    rfl
  | err e =>
    refine .inr ⟨.err e, by simp, ?_⟩
    simp only [sign, withMemory, hdec]
    rfl
  | panic =>
    refine .inr ⟨.panic, by simp, ?_⟩
    simp only [sign, withMemory, hdec]
    rfl

/-- **Every step keeps the account.** -/
theorem Accounted.step (hb : lim.Bounded) {p p' : IssuerProc (cfg.withMemory lim)}
    {h : List (IssuerEvent × IssuerReply)} {e : IssuerEvent} {r : IssuerReply}
    (hinv : Accounted lim C cfg.json h p.limiter)
    (hlen : ∀ body now limiterNow, e = .sign body now limiterNow →
      body.req.body.blinded.length < 2 ^ 32)
    (hstep : p.step e = some (p', r)) : Accounted lim C cfg.json (h ++ [(e, r)]) p'.limiter := by
  by_cases he : ∃ body now limiterNow, e = .sign body now limiterNow
  · obtain ⟨body, now, limiterNow, rfl⟩ := he
    rcases IssuerConfig.sign_withMemory lim cfg p.rot p.limiter body now limiterNow with
      ⟨auth, hdec, hsign⟩ | ⟨r', hnone, hsign⟩
    · let c : IssueCall C := ⟨p.rot.current, cfg.attesterPub, body.req, auth, now, limiterNow⟩
      obtain ⟨⟨limiter, result⟩, hcall⟩ : ∃ x, c.step lim p.limiter = some x := ⟨_, rfl⟩
      rw [IssuerProc.step_sign_eq (hsign _ hcall)] at hstep
      cases hstep
      obtain ⟨k, hk, hsum⟩ := hinv
      refine ⟨k ++ [(c, result)], hk.step hb (hlen body now limiterNow rfl) hcall, fun key => ?_⟩
      rw [signedFor_snoc, returned_snoc, hsum]
      congr 1
      cases result with
      | ok resp =>
        simp only [Outcome.mapErr_ok, signedAs, signedIn, hdec]
        rfl
      | err e => rfl
      | panic => rfl
    · rw [IssuerProc.step_sign_eq hsign] at hstep
      cases hstep
      refine hinv.keep ?_
      cases r' with
      | ok resp => exact absurd rfl (hnone resp)
      | err e => rfl
      | panic => rfl
  · obtain ⟨hlimiter, hnone⟩ := IssuerProc.step_not_sign hstep he cfg.json
    rw [hlimiter]
    exact hinv.keep hnone

/-- **The quota of a process.** -/
theorem signedFor_le_max (hb : lim.Bounded) {proc p : IssuerProc (cfg.withMemory lim)}
    (hnew : proc.limiter = InMemoryRateLimiter.new) {h : List (IssuerEvent × IssuerReply)}
    (ht : Trace IssuerProc.step proc h p)
    (hlen : ∀ x ∈ h, ∀ body, x.1.call = .sign body → body.req.body.blinded.length < 2 ^ 32)
    (key : UInt64 × List UInt8) : signedFor lim cfg.json key h ≤ lim.maxPerEpoch.toNat := by
  have hinv : Accounted lim C cfg.json h p.limiter := by
    induction ht with
    | init =>
      rw [hnew]
      exact ⟨[], ⟨rfl, fun _ => Nat.zero_le _, fun _ => Nat.zero_le _⟩, fun _ => rfl⟩
    | @snoc h p p' e r _ hstep ih =>
      refine (ih fun x hx => hlen x (List.mem_append_left _ hx)).step hb ?_ hstep
      rintro body now limiterNow rfl
      exact hlen _ (List.mem_append_right _ (List.mem_singleton_self _)) body rfl
  obtain ⟨k, hk, hsum⟩ := hinv
  rw [hsum]
  exact (hk.counted key).trans (hk.capped key)

/-! ## The quota of requests in progress -/

/-- The blind signatures in an answer, if it is for the identity. -/
def signedTo (json : AuthorizationJson) (id : List UInt8) : IssuerCall × IssuerReply → Nat
  | (.sign body, .sign (.ok resp)) =>
    match decodeAuthorization json body.authorizationB64 with
    | .ok auth => if auth.rateLimitId = id then resp.blindSigs.length else 0
    | _ => 0
  | _ => 0

/-- An answer with signatures is decided when the limiter is asked. -/
theorem IssuerTasks.step_signed {s s' : IssuerTasks cfg} {i : IssuerTaskEvent} {m : IssuerMark}
    (h : s.step i = some (s', m)) {who : Option Nat} {body : SignBody} {now limiterNow : UInt64}
    {resp : SignResponse}
    (hm : m.point = some (who, .sign body now limiterNow, .sign (.ok resp))) :
    ∃ t, i = .consume t limiterNow := by
  cases i with
  | sign t body =>
    simp only [step] at h
    split at h <;> cases h
    cases hm
  | refuse t =>
    simp only [step] at h
    split at h <;> cases h
    cases hm
  | lock t now =>
    simp only [step] at h
    split at h <;> cases h
    cases hm
  | check t =>
    simp only [step] at h
    split at h
    · split at h <;> cases h <;> cases hm
    · cases h
  | consume t limiterNow' =>
    simp only [step] at h
    split at h <;> cases h
    simp only [Mark.point, Option.some.injEq, Prod.mk.injEq, IssuerEvent.sign.injEq] at hm
    obtain ⟨-, ⟨-, -, rfl⟩, -⟩ := hm
    exact ⟨t, rfl⟩
  | finish t =>
    simp only [step] at h
    split at h <;> cases h <;> cases hm
  | other e =>
    simp only [step] at h
    split at h
    · cases h
    · next hsign =>
      split at h
      · cases h
      · obtain ⟨⟨p, r⟩, hp, heq⟩ := Option.map_eq_some_iff.mp h
        cases heq
        cases hm
        exact absurd rfl (hsign body now limiterNow)

/-- The epoch of every step of the sequential run that signs is one in which the limiter was
asked. -/
theorem IssuerTasks.mem_epochs {proc : IssuerProc cfg} {h : List (IssuerTaskEvent × IssuerMark)}
    {s : IssuerTasks cfg} (ht : Trace IssuerTasks.step (.start proc) h s) {epochs : Finset UInt64}
    (hepochs : ∀ t limiterNow, .consume t limiterNow ∈ h.map Prod.fst →
      InMemoryRateLimiter.currentEpoch lim limiterNow ∈ epochs)
    {body : SignBody} {now limiterNow : UInt64} {resp : SignResponse}
    (hx : (.sign body now limiterNow, .sign (.ok resp)) ∈ (points (h.map Prod.snd)).map Prod.snd) :
    InMemoryRateLimiter.currentEpoch lim limiterNow ∈ epochs := by
  obtain ⟨⟨who, y⟩, hy, rfl⟩ := List.mem_map.mp hx
  obtain ⟨m, hm, hpoint⟩ := List.mem_filterMap.mp hy
  obtain ⟨⟨i, m'⟩, hi, rfl⟩ := List.mem_map.mp hm
  obtain ⟨h₁, h₂, rfl⟩ := List.append_of_mem hi
  obtain ⟨s₁, s₂, -, hstep, -⟩ := Trace.split_iff.mp ht
  obtain ⟨t, rfl⟩ := IssuerTasks.step_signed hstep hpoint
  exact hepochs t limiterNow (List.mem_map_of_mem (f := Prod.fst) hi)

/-- What a step signs for an identity is charged to the identity and one epoch. -/
theorem signedTo_cases (lim : LimiterConfig) (json : AuthorizationJson) (id : List UInt8)
    (x : IssuerEvent × IssuerReply) :
    signedTo json id (x.1.call, x.2) = 0 ∨
      ∃ body now limiterNow resp, x = (.sign body now limiterNow, .sign (.ok resp)) ∧
        signedTo json id (x.1.call, x.2)
          = signedAs lim json (InMemoryRateLimiter.currentEpoch lim limiterNow, id) x := by
  obtain ⟨e, r⟩ := x
  cases e with
  | sign body now limiterNow =>
    rcases r with _ | _ | _ | (resp | err | _) | _ | _
    case sign.ok =>
      refine .inr ⟨body, now, limiterNow, resp, rfl, ?_⟩
      cases hdec : decodeAuthorization json body.authorizationB64 with
      | ok auth =>
        simp only [IssuerEvent.call, signedTo, signedAs, signedIn, hdec, Prod.mk.injEq, true_and]
      | err e => simp only [IssuerEvent.call, signedTo, signedAs, signedIn, hdec]
      | panic => simp only [IssuerEvent.call, signedTo, signedAs, signedIn, hdec]
    all_goals exact .inl rfl
  | keys => exact .inl rfl
  | keysVersion version => exact .inl rfl
  | kt => exact .inl rfl
  | rotate task header => exact .inl rfl
  | generate task coins now => exact .inl rfl
  | write task => exact .inl rfl

/-- What is signed for an identity is charged to one of the epochs. -/
theorem sum_signedTo_le (json : AuthorizationJson) (id : List UInt8) {epochs : Finset UInt64} :
    ∀ {h : List (IssuerEvent × IssuerReply)},
      (∀ body now limiterNow resp, (.sign body now limiterNow, .sign (.ok resp)) ∈ h →
        InMemoryRateLimiter.currentEpoch lim limiterNow ∈ epochs) →
      (h.map fun x => signedTo json id (x.1.call, x.2)).sum
        ≤ ∑ epoch ∈ epochs, signedFor lim json (epoch, id) h
  | [], _ => Nat.zero_le _
  | x :: h, hmem => by
    have ih := sum_signedTo_le json id fun body now limiterNow resp hx =>
      hmem body now limiterNow resp (List.mem_cons_of_mem _ hx)
    simp only [signedFor, List.map_cons, List.sum_cons, Finset.sum_add_distrib]
    refine Nat.add_le_add ?_ ih
    rcases signedTo_cases lim json id x with hzero | ⟨body, now, limiterNow, resp, rfl, heq⟩
    · rw [hzero]
      exact Nat.zero_le _
    · rw [heq]
      exact Finset.single_le_sum (f := fun epoch => signedAs lim json (epoch, id) _)
        (fun _ _ => Nat.zero_le _) (hmem body now limiterNow resp List.mem_cons_self)

/--
**The quota holds for requests in progress.** Below the largest cap, whatever `sign` requests the
issuer is handling at once, each for fewer than 2^32 messages, and however they overlap with
rotations: the blind signatures that an attestation identity has been returned are at most the cap
for each epoch in which the limiter was asked.
-/
theorem sign_tasks_quota (hb : lim.Bounded) {proc : IssuerProc (cfg.withMemory lim)}
    (hnew : proc.limiter = InMemoryRateLimiter.new) {h : List (IssuerTaskEvent × IssuerMark)}
    {s : IssuerTasks (cfg.withMemory lim)} (ht : Trace IssuerTasks.step (.start proc) h s)
    (hlen : ∀ x ∈ calls IssuerEvent.call (h.map Prod.snd), ∀ body, x.2 = .sign body →
      body.req.body.blinded.length < 2 ^ 32)
    {epochs : Finset UInt64} (hepochs : ∀ t limiterNow, .consume t limiterNow ∈ h.map Prod.fst →
      InMemoryRateLimiter.currentEpoch lim limiterNow ∈ epochs) (id : List UInt8) :
    ((replies IssuerEvent.call (h.map Prod.snd)).map fun x => signedTo cfg.json id x.2).sum
      ≤ epochs.card * lim.maxPerEpoch.toNat := by
  have hlin := (IssuerTasks.implements (cfg.withMemory lim)).linearization
    (fun _ _ hx => by cases hx) (fun _ => rfl) ht
  obtain ⟨p, hseq⟩ := hlin.legal
  have hasked := hlin.consistent.performed_subperm
  have hanswered := hlin.consistent.replies_subperm
  generalize hq : (points (h.map Prod.snd)).map Prod.snd = q at hseq
  have hcap : ∀ key, signedFor lim cfg.json key q ≤ lim.maxPerEpoch.toNat := by
    refine signedFor_le_max hb hnew hseq ?_
    subst hq
    intro x hx body hbody
    obtain ⟨y, hy, rfl⟩ := List.mem_map.mp hx
    refine hlen (y.1, y.2.1.call) (hasked.subset ?_) body hbody
    exact List.mem_map.mpr ⟨_, List.mem_map.mpr ⟨y, hy, rfl⟩, rfl⟩
  calc ((replies IssuerEvent.call (h.map Prod.snd)).map fun x => signedTo cfg.json id x.2).sum
      ≤ ((performed IssuerEvent.call (points (h.map Prod.snd))).map
          fun x => signedTo cfg.json id x.2).sum := sum_map_le_of_subperm _ hanswered
    _ = (q.map fun x => signedTo cfg.json id (x.1.call, x.2)).sum := by
        rw [← hq, performed, List.map_map, List.map_map]
        rfl
    _ ≤ ∑ epoch ∈ epochs, signedFor lim cfg.json (epoch, id) q := by
        refine sum_signedTo_le _ _ fun body now limiterNow resp hx => ?_
        exact IssuerTasks.mem_epochs ht hepochs (hq ▸ hx)
    _ ≤ epochs.card * lim.maxPerEpoch.toNat := Finset.sum_le_card_nsmul _ _ _ fun _ _ => hcap _

end Quota

/-! ## A concrete run -/

/-- The concrete issuer with a limiter. -/
def limitedConfig : IssuerConfig Crypto.sample :=
  (sampleConfig [sampleAuthorization]).withMemory sampleLimiter

def limitedIssuer : IssuerProc limitedConfig where
  rot := (sampleIssuer [sampleAuthorization]).rot
  tasks _ := none
  limiter := InMemoryRateLimiter.new

/-- The answer to the concrete request. -/
def sampleSigned : IssuerReply := .sign (.ok ⟨[Crypto.sample.pomfrit.sign2 [1] [5]]⟩)

/-- A request is signed, and while it holds the lock somebody asks for the key. -/
def overlappedSign : List (IssuerTaskEvent × IssuerMark) :=
  [(.sign 0 sampleSignBody, .called 0 (.sign sampleSignBody)),
    (.lock 0 1030, .silent),
    (.other .keys, .instant .keys (.keys (Issuer.generate Crypto.sample [1] 1).public)),
    (.check 0, .silent),
    (.consume 0 1030, .effect 0 (.sign sampleSignBody 1030 1030) sampleSigned),
    (.finish 0, .returned 0 (.sign sampleSignBody) sampleSigned)]

theorem sampleAuthorization_batch :
    authorizedBatch Crypto.sample (Crypto.sample.faest.publicBytesFromSk sampleSigningKey)
      sampleSignBody.req sampleAuthorization 1030 = .ok 1 :=
  authorizedBatch_eq_ok.mpr ⟨Authorizer.verify_signed Faest.sample_complete rfl _ _ (by decide)
    (by decide), rfl, rfl, by decide, rfl⟩

theorem limitedConfig_decode :
    decodeAuthorization limitedConfig.json sampleSignBody.authorizationB64
      = .ok sampleAuthorization :=
  sampleIssuance_decode

theorem overlappedSign_trace :
    ∃ s, Trace IssuerTasks.step (IssuerTasks.start limitedIssuer) overlappedSign s := by
  have hquota : limitedConfig.limiter.tryConsume InMemoryRateLimiter.new 1030
      sampleAuthorization.rateLimitId 1 = (sampleCharged, .ok ()) := rfl
  have hsign := IssuerTasks.step_sign (s := .start limitedIssuer) (t := 0) rfl limitedConfig_decode
  have ht := Trace.snoc .init hsign
  have ht := ht.snoc (e := .lock 0 1030) rfl
  have ht := ht.snoc (e := .other .keys) rfl
  have ht := ht.snoc (IssuerTasks.step_check (t := 0) rfl sampleAuthorization_batch)
  have ht := ht.snoc (IssuerTasks.step_consume (t := 0) rfl hquota)
  have ht := ht.snoc (e := .finish 0) rfl
  exact ⟨_, ht⟩

theorem sign_tasks_linearization_sample :
    ∃ q, Linearization IssuerEvent.call IssuerProc.step limitedIssuer
      (overlappedSign.map Prod.snd) q := by
  obtain ⟨s, ht⟩ := overlappedSign_trace
  exact sign_tasks_linearization ht

/-- One signature is returned, of ten in one epoch. -/
theorem sign_tasks_quota_sample :
    ((replies IssuerEvent.call (overlappedSign.map Prod.snd)).map
      fun x => signedTo limitedConfig.json sampleAuthorization.rateLimitId x.2).sum = 1 ∧
    ((replies IssuerEvent.call (overlappedSign.map Prod.snd)).map
      fun x => signedTo limitedConfig.json sampleAuthorization.rateLimitId x.2).sum ≤ 1 * 10 := by
  constructor
  · have hkeys : ∀ r, signedTo limitedConfig.json sampleAuthorization.rateLimitId
        (.other .keys, r) = 0 := fun _ => rfl
    have hsigned : signedTo limitedConfig.json sampleAuthorization.rateLimitId
        (.sign sampleSignBody, sampleSigned) = 1 := by
      rw [sampleSigned, signedTo, limitedConfig_decode]
      exact if_pos rfl
    have hreplies : replies IssuerEvent.call (overlappedSign.map Prod.snd)
        = [(none, .other .keys, .keys (Issuer.generate Crypto.sample [1] 1).public),
          (some 0, .sign sampleSignBody, sampleSigned)] := rfl
    simp only [hreplies, List.map_cons, List.map_nil, List.sum_cons, List.sum_nil, hkeys, hsigned,
      Nat.add_zero, Nat.zero_add]
  · obtain ⟨s, ht⟩ := overlappedSign_trace
    refine @sign_tasks_quota _ sampleLimiter (sampleConfig [sampleAuthorization]) (by decide) _ rfl
      _ _ ht ?_ {0} ?_ _
    · rintro x hx body hbody
      rcases List.mem_cons.mp hx with rfl | hx
      · cases hbody
        decide
      · rw [List.mem_singleton.mp hx] at hbody
        cases hbody
    · intro t limiterNow ht
      have hlast : IssuerTaskEvent.consume t limiterNow = .consume 0 1030 := by
        simpa [overlappedSign] using ht
      cases hlast
      decide

end EatPass
