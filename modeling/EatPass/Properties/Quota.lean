import EatPass.Infra.Trace
import EatPass.Properties.Issuance

/-!
# Issuance quotas

What the in-memory limiter guarantees an issuer, and where its arithmetic ends.

* `returned_le_max` — over any calls, no identity gets more signatures in an epoch than the cap
* `failed_issuance_charge` — what a call that fails has charged
* `limiter_safe_iff` — the largest cap is the only one at which the counters overflow
-/

namespace EatPass

open Infra

variable {C : Crypto} {cfg : LimiterConfig}

/-! ## Calls of the issuer -/

/-- What `issue_authorized_with_limit` is called with. The issuer's key changes with rotations. -/
structure IssueCall (C : Crypto) where
  issuer : Issuer
  attesterPub : C.faest.VerificationKey
  req : SignRequest
  auth : IssuanceAuthorization
  now : UInt64
  limiterNow : UInt64

/-- The counter the call is charged to. -/
def IssueCall.key (cfg : LimiterConfig) (c : IssueCall C) : UInt64 × List UInt8 :=
  (InMemoryRateLimiter.currentEpoch cfg c.limiterNow, c.auth.rateLimitId)

/-- The batch size, as the limiter is told. -/
def IssueCall.batch (c : IssueCall C) : UInt32 := UInt32.ofNat c.req.body.blinded.length

/-- One call. The limiter is all that is left of it. -/
def IssueCall.step (cfg : LimiterConfig) (s : InMemoryRateLimiter) (c : IssueCall C) :
    Option (InMemoryRateLimiter × Outcome GateError SignResponse) :=
  some (issueAuthorizedWithLimit C (inMemoryRateLimiter cfg) c.issuer c.attesterPub c.req c.auth s
    c.now c.limiterNow)

abbrev IssueHistory (C : Crypto) := List (IssueCall C × Outcome GateError SignResponse)

/-- The blind signatures that a call has returned to an identity in an epoch. -/
def returnedBy (cfg : LimiterConfig) (key : UInt64 × List UInt8) :
    IssueCall C × Outcome GateError SignResponse → Nat
  | (c, .ok resp) => if c.key cfg = key then resp.blindSigs.length else 0
  | _ => 0

/-- The blind signatures returned to an identity while an epoch was current. -/
def returned (cfg : LimiterConfig) (h : IssueHistory C) (key : UInt64 × List UInt8) : Nat :=
  (h.map (returnedBy cfg key)).sum

theorem returned_snoc (h : IssueHistory C) (x : IssueCall C × Outcome GateError SignResponse)
    (key : UInt64 × List UInt8) :
    returned cfg (h ++ [x]) key = returned cfg h key + returnedBy cfg key x := by
  simp only [returned, List.map_append, List.sum_append, List.map_cons, List.map_nil,
    List.sum_cons, List.sum_nil, Nat.add_zero]

/-- A signed batch has one signature for each message. -/
theorem blindSign_length {issuer : Issuer} {req : SignRequest} {resp : SignResponse}
    (h : issuer.blindSign C req = .ok resp) : resp.blindSigs.length = req.body.blinded.length := by
  simp only [Issuer.blindSign, Outcome.bind_eq_ok, Outcome.pure_eq_ok, Outcome.ok.injEq] at h
  obtain ⟨_, _, rfl⟩ := h
  exact List.length_map _

/-! ## Counters and signatures -/

/-- The counters stay under the cap, and no more signatures were returned than are counted. -/
structure QuotaInv (cfg : LimiterConfig) (h : IssueHistory C) (s : InMemoryRateLimiter) :
    Prop where
  unpoisoned : s.poisoned = false
  counted : ∀ key, returned cfg h key ≤ (s.state key).toNat
  capped : ∀ key, (s.state key).toNat ≤ cfg.maxPerEpoch.toNat

/-- A call that leaves the limiter alone and returns no signature. -/
theorem QuotaInv.keep {h : IssueHistory C} {s : InMemoryRateLimiter} {c : IssueCall C}
    {r : Outcome GateError SignResponse} (hinv : QuotaInv cfg h s) (hr : ∀ resp, r ≠ .ok resp) :
    QuotaInv cfg (h ++ [(c, r)]) s := by
  refine ⟨hinv.unpoisoned, fun key => ?_, hinv.capped⟩
  have hzero : returnedBy cfg key (c, r) = 0 := by
    cases r with
    | ok resp => exact absurd rfl (hr resp)
    | err e => rfl
    | panic => rfl
  rw [returned_snoc, hzero]
  exact hinv.counted key

/-- What a call returns is in its own counter. -/
theorem returnedBy_le {c : IssueCall C} {r : Outcome GateError SignResponse}
    (hr : ∀ resp, r = .ok resp → resp.blindSigs.length = c.req.body.blinded.length)
    (key : UInt64 × List UInt8) :
    returnedBy cfg key (c, r) ≤ if key = c.key cfg then c.req.body.blinded.length else 0 := by
  cases r with
  | ok resp =>
    simp only [returnedBy, hr resp rfl, eq_comm (a := key), le_refl]
  | err e => exact Nat.zero_le _
  | panic => exact Nat.zero_le _

/-- A call that was charged returns at most what it was charged. -/
theorem QuotaInv.charge {h : IssueHistory C} {s s' : InMemoryRateLimiter} {c : IssueCall C}
    {r : Outcome GateError SignResponse} (hinv : QuotaInv cfg h s)
    (hstate : s'.state = Function.update s.state (c.key cfg) (s.state (c.key cfg) + c.batch))
    (hunpoisoned : s'.poisoned = false)
    (hlen : c.req.body.blinded.length < 2 ^ 32)
    (hfits : (s.state (c.key cfg)).toNat + c.batch.toNat ≤ cfg.maxPerEpoch.toNat)
    (hr : ∀ resp, r = .ok resp → resp.blindSigs.length = c.req.body.blinded.length) :
    QuotaInv cfg (h ++ [(c, r)]) s' := by
  have hbatch : c.batch.toNat = c.req.body.blinded.length := Nat.mod_eq_of_lt hlen
  -- the counter stays below the cap, so the addition does not wrap
  have hsum : (s.state (c.key cfg) + c.batch).toNat
      = (s.state (c.key cfg)).toNat + c.req.body.blinded.length := by
    have hmax := cfg.maxPerEpoch.toNat_lt
    rw [UInt32.toNat_add, hbatch]
    exact Nat.mod_eq_of_lt (by omega)
  refine ⟨hunpoisoned, fun key => ?_, fun key => ?_⟩
  · have hcounted := hinv.counted key
    have hle : returnedBy cfg key (c, r) ≤ _ := returnedBy_le hr key
    rw [returned_snoc, hstate]
    by_cases hkey : key = c.key cfg
    · -- the counter went up by the whole batch, whether it was signed or not
      rw [if_pos hkey] at hle
      subst hkey
      rw [Function.update_self, hsum]
      omega
    · rw [if_neg hkey] at hle
      rw [Function.update_of_ne hkey]
      omega
  · rw [hstate]
    by_cases hkey : key = c.key cfg
    · subst hkey
      rw [Function.update_self, hsum]
      omega
    · rw [Function.update_of_ne hkey]
      exact hinv.capped key

/-- **Every call keeps the counters under the cap and above the signatures.** -/
theorem QuotaInv.step (hb : cfg.Bounded) {h : IssueHistory C} {s s' : InMemoryRateLimiter}
    {c : IssueCall C} {r : Outcome GateError SignResponse} (hinv : QuotaInv cfg h s)
    (hlen : c.req.body.blinded.length < 2 ^ 32) (hstep : c.step cfg s = some (s', r)) :
    QuotaInv cfg (h ++ [(c, r)]) s' := by
  have hcall := Option.some.inj hstep
  rcases issueAuthorizedWithLimit_cases (inMemoryRateLimiter cfg) c.issuer c.attesterPub c.req
    c.auth s c.now c.limiterNow with ⟨-, hrun⟩ | ⟨hsame, hnone⟩
  · rw [hrun] at hcall
    simp only [consumeAndSign, inMemoryRateLimiter,
      InMemoryRateLimiter.tryConsumeAt_eq hb hinv.unpoisoned] at hcall
    split at hcall
    · next hfits =>
      obtain ⟨rfl, rfl⟩ := Prod.mk.inj hcall
      refine hinv.charge rfl rfl hlen hfits fun resp hresp => ?_
      simp only [Outcome.mapErr_ok, Outcome.ok_bind, Outcome.mapErr_eq_ok] at hresp
      exact blindSign_length hresp
    · obtain ⟨rfl, rfl⟩ := Prod.mk.inj hcall
      exact hinv.keep (by simp)
  · rw [hcall] at hsame hnone
    obtain rfl : s' = s := hsame
    exact hinv.keep hnone

/--
**The quota holds over whole runs.** Below the largest cap, whatever the issuer is asked to sign
and whatever its clocks say, no identity gets more blind signatures in an epoch than the cap.
-/
theorem returned_le_max (hb : cfg.Bounded) {h : IssueHistory C} {s : InMemoryRateLimiter}
    (ht : Trace (IssueCall.step cfg) .new h s)
    (hlen : ∀ x ∈ h, x.1.req.body.blinded.length < 2 ^ 32) (epoch : UInt64) (id : List UInt8) :
    returned cfg h (epoch, id) ≤ cfg.maxPerEpoch.toNat := by
  have hinv : QuotaInv cfg h s := by
    induction ht with
    | init => exact ⟨rfl, fun key => Nat.zero_le _, fun key => Nat.zero_le _⟩
    | @snoc h s s' c r _ hstep ih =>
      have hlast := hlen (c, r) (List.mem_append_right _ (List.mem_singleton_self _))
      exact (ih fun x hx => hlen x (List.mem_append_left _ hx)).step hb hlast hstep
  exact (hinv.counted (epoch, id)).trans (hinv.capped (epoch, id))

/-! ## Concrete calls -/

def sampleLimiter : LimiterConfig where
  profile := .release
  maxPerEpoch := 10
  epochSecs := 3600

/-- A request for version 1 of the key, at an issuer that is at some version. -/
def sampleCall (version : UInt32) : IssueCall Crypto.sample where
  issuer := Issuer.generate Crypto.sample [1] version
  attesterPub := Crypto.sample.faest.publicBytesFromSk sampleSigningKey
  req := sampleSignBody.req
  auth := sampleAuthorization
  now := 1030
  limiterNow := 1030

/-- The limiter when that call has been charged. -/
def sampleCharged : InMemoryRateLimiter where
  state := Function.update (fun _ => 0) ((sampleCall 1).key sampleLimiter) 1
  poisoned := false

/-- The authorization is good, so the call gets as far as the limiter, also as a replay. -/
theorem sampleCall_consumed {s s' : InMemoryRateLimiter} {r : Outcome RateLimitError Unit}
    (version : UInt32) (hcall : (inMemoryRateLimiter cfg).tryConsume s 1030
      sampleAuthorization.rateLimitId 1 = (s', r)) :
    (sampleCall version).step cfg s = some (s', r.mapErr RateLimitError.toGateError >>= fun _ =>
      ((sampleCall version).issuer.blindSign Crypto.sample sampleSignBody.req).mapErr
        fun e => .unknown e.message) := by
  have hverify : sampleAuthorization.verify Crypto.sample
      (Crypto.sample.faest.publicBytesFromSk sampleSigningKey) 1030 = .ok () :=
    Authorizer.verify_signed Faest.sample_complete rfl _ _ (by decide) (by decide)
  have hchecks : authorizedBatch Crypto.sample
      (Crypto.sample.faest.publicBytesFromSk sampleSigningKey) sampleSignBody.req
      sampleAuthorization 1030 = .ok 1 :=
    authorizedBatch_eq_ok.mpr ⟨hverify, rfl, rfl, by decide, rfl⟩
  simp only [IssueCall.step, sampleCall, issueAuthorizedWithLimit, hchecks, hcall]
  rfl

/-- The call gets as far as the signature. -/
theorem sampleCall_step (version : UInt32) :
    (sampleCall version).step sampleLimiter .new = some (sampleCharged,
      ((sampleCall version).issuer.blindSign Crypto.sample sampleSignBody.req).mapErr
        fun e => .unknown e.message) :=
  sampleCall_consumed version rfl

/-- A cap of two signatures. -/
def tightLimiter : LimiterConfig := { sampleLimiter with maxPerEpoch := 2 }

/-- The limiter when the replay has been charged too. -/
def replayCharged : InMemoryRateLimiter where
  state := Function.update sampleCharged.state ((sampleCall 1).key tightLimiter) 2
  poisoned := false

/-- The authorization is used, replayed, and replayed once too often. -/
def replayedCalls : IssueHistory Crypto.sample :=
  [(sampleCall 1, .ok ⟨[Crypto.sample.pomfrit.sign2 [1] [5]]⟩),
    (sampleCall 1, .ok ⟨[Crypto.sample.pomfrit.sign2 [1] [5]]⟩),
    (sampleCall 1, .err .quotaExceeded)]

theorem replayedCalls_trace :
    Trace (IssueCall.step tightLimiter) .new replayedCalls replayCharged := by
  have hfirst : (inMemoryRateLimiter tightLimiter).tryConsume .new 1030
      sampleAuthorization.rateLimitId 1 = (sampleCharged, .ok ()) := rfl
  have hreplay : (inMemoryRateLimiter tightLimiter).tryConsume sampleCharged 1030
      sampleAuthorization.rateLimitId 1 = (replayCharged, .ok ()) := rfl
  have hrefused : (inMemoryRateLimiter tightLimiter).tryConsume replayCharged 1030
      sampleAuthorization.rateLimitId 1 = (replayCharged, .err .exceeded) := rfl
  exact .snoc (.snoc (.snoc .init (sampleCall_consumed 1 hfirst)) (sampleCall_consumed 1 hreplay))
    (sampleCall_consumed 1 hrefused)

/-- The cap is reached. -/
theorem returned_le_max_sample :
    Trace (IssueCall.step tightLimiter) .new replayedCalls replayCharged ∧
      returned tightLimiter replayedCalls ((sampleCall 1).key tightLimiter) = 2 ∧
      returned tightLimiter replayedCalls ((sampleCall 1).key tightLimiter) ≤ 2 := by
  refine ⟨replayedCalls_trace, ?_, returned_le_max (by decide) replayedCalls_trace ?_ _ _⟩
  · simp [returned, replayedCalls, returnedBy]
  · intro x hx
    simp only [replayedCalls, List.mem_cons, List.not_mem_nil, or_false] at hx
    rcases hx with rfl | rfl | rfl <;> decide

/-! ## Calls that fail -/

/-- The calls of a limiter. -/
inductive LimiterCall where
  | tryConsumeAt (epoch : UInt64) (attestationId : List UInt8) (n : UInt32)
  | pruneBefore (keepFrom : UInt64)
deriving DecidableEq

/-- The limiter after a call. A call that panics on a poisoned mutex changes nothing. -/
def InMemoryRateLimiter.call (cfg : LimiterConfig) (s : InMemoryRateLimiter) :
    LimiterCall → InMemoryRateLimiter
  | .tryConsumeAt epoch id n => (s.tryConsumeAt cfg epoch id n).1
  | .pruneBefore keepFrom => (s.pruneBefore keepFrom).getD s

/-- The limiter after some calls. -/
def InMemoryRateLimiter.calls (cfg : LimiterConfig) (calls : List LimiterCall) :
    InMemoryRateLimiter :=
  calls.foldl (InMemoryRateLimiter.call cfg) .new

/-- The call gets to `*used += n` and the sum does not fit. -/
def Overflows (cfg : LimiterConfig) (s : InMemoryRateLimiter) : LimiterCall → Prop
  | .tryConsumeAt epoch id n =>
    s.poisoned = false ∧ ¬ cfg.maxPerEpoch < saturatingAddU32 (s.state (epoch, id)) n ∧
      2 ^ 32 ≤ (s.state (epoch, id)).toNat + n.toNat
  | .pruneBefore _ => False

/-- After any calls the counters are under the cap, and the next call does not overflow. -/
def LimiterSafe (cfg : LimiterConfig) : Prop :=
  ∀ calls : List LimiterCall,
    (∀ key, (InMemoryRateLimiter.calls cfg calls).state key ≤ cfg.maxPerEpoch) ∧
    ∀ c, ¬ Overflows cfg (InMemoryRateLimiter.calls cfg calls) c

/-- The counters are under the cap. -/
structure CapInv (cfg : LimiterConfig) (s : InMemoryRateLimiter) : Prop where
  unpoisoned : s.poisoned = false
  capped : ∀ key, (s.state key).toNat ≤ cfg.maxPerEpoch.toNat

theorem CapInv.call (hb : cfg.Bounded) {s : InMemoryRateLimiter} (hinv : CapInv cfg s)
    (c : LimiterCall) : CapInv cfg (s.call cfg c) := by
  cases c with
  | tryConsumeAt epoch id n =>
    simp only [InMemoryRateLimiter.call, InMemoryRateLimiter.tryConsumeAt_eq hb hinv.unpoisoned]
    split
    · next hfits =>
      refine ⟨rfl, fun key => ?_⟩
      simp only [Function.update_apply]
      split
      · rw [UInt32.toNat_add]
        exact (Nat.mod_le _ _).trans hfits
      · exact hinv.capped key
    · exact hinv
  | pruneBefore keepFrom =>
    simp only [InMemoryRateLimiter.call, InMemoryRateLimiter.pruneBefore, hinv.unpoisoned,
      Bool.false_eq_true, if_false, Option.getD_some]
    refine ⟨rfl, fun key => ?_⟩
    dsimp only
    split
    · exact hinv.capped key
    · exact Nat.zero_le _

theorem capInv_calls (hb : cfg.Bounded) (calls : List LimiterCall) :
    CapInv cfg (InMemoryRateLimiter.calls cfg calls) := by
  induction calls using List.reverseRecOn with
  | nil => exact ⟨rfl, fun key => Nat.zero_le _⟩
  | append_singleton calls c ih =>
    rw [InMemoryRateLimiter.calls, List.foldl_append]
    exact ih.call hb c

/-- At the largest cap the guard lets everything through. -/
theorem guard_open_at_max (hmax : cfg.maxPerEpoch.toNat = 2 ^ 32 - 1) (used n : UInt32) :
    ¬ cfg.maxPerEpoch < saturatingAddU32 used n := by
  have hlt := (saturatingAddU32 used n).toNat_lt
  rw [UInt32.lt_iff_toNat_lt, hmax]
  omega

/-- One call fills a counter up to the largest cap, and the next one adds one to it. -/
theorem overflows_at_max (hmax : cfg.maxPerEpoch.toNat = 2 ^ 32 - 1) :
    Overflows cfg (InMemoryRateLimiter.calls cfg [.tryConsumeAt 0 [] cfg.maxPerEpoch])
      (.tryConsumeAt 0 [] 1) := by
  have hzero : ((0 : UInt32)).toNat + cfg.maxPerEpoch.toNat < 2 ^ 32 := by
    rw [hmax]
    decide
  have hfirst : InMemoryRateLimiter.calls cfg [.tryConsumeAt 0 [] cfg.maxPerEpoch]
      = ⟨Function.update (fun _ => 0) (0, []) (0 + cfg.maxPerEpoch), false⟩ := by
    simp only [InMemoryRateLimiter.calls, List.foldl_cons, List.foldl_nil,
      InMemoryRateLimiter.call, InMemoryRateLimiter.tryConsumeAt, InMemoryRateLimiter.new,
      Bool.false_eq_true, if_false, guard_open_at_max hmax, addU32_of_lt _ hzero]
  rw [hfirst]
  refine ⟨rfl, guard_open_at_max hmax _ _, ?_⟩
  simp only [Function.update_self, UInt32.zero_add, hmax]
  decide

/--
**The counters are safe at every cap but the largest.** With the cap 4294967295 the guard lets
every sum through, since saturation never exceeds it.
-/
theorem limiter_safe_iff (cfg : LimiterConfig) :
    LimiterSafe cfg ↔ cfg.maxPerEpoch.toNat < 2 ^ 32 - 1 := by
  constructor
  · intro hsafe
    by_contra hge
    have hlt := cfg.maxPerEpoch.toNat_lt
    exact (hsafe _).2 _ (overflows_at_max (by omega))
  · intro hb calls
    have hinv := capInv_calls hb calls
    refine ⟨fun key => UInt32.le_iff_toNat_le.mpr (hinv.capped key), fun c hover => ?_⟩
    cases c with
    | tryConsumeAt epoch id n =>
      obtain ⟨-, hguard, hsum⟩ := hover
      have hfits := (add_le_of_saturating hb _ _).mp hguard
      omega
    | pruneBefore keepFrom => exact hover

/-- Two calls with the cap 4294967295. -/
theorem largest_cap_overflows : ¬ ∀ cfg : LimiterConfig, LimiterSafe cfg := by
  intro hall
  exact (hall ⟨.release, 4294967295, 3600⟩ _).2 _ (overflows_at_max (by decide))

end EatPass
