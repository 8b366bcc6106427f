import Mathlib.Data.Finset.Dedup
import EatPass.Core.Token
import EatPass.Core.RateLimit

/-!
# Authorizing an issuance

`core/src/authorize.rs`, with the parts of `gate.rs` it uses. The attester signs an
`IssuanceAuthorization` for one channel binding, the issuer checks it and blind-signs the batch
with that binding.

* `signedBytes_inj` — what a signature on an authorization commits to
* `bindingMessage_inj` — what a binding commits to
* `issueAuthorizedWithLimit_ok` — what the issuer has checked when it signs
-/

namespace EatPass

open Infra

/-! ## The gate -/

inductive GateError where
  | attestationInvalid (what : String)
  | measurementNotAllowed
  | bindingMismatch
  | quotaExceeded
  | unknown (what : String)
deriving DecidableEq

def GateError.message : GateError → String
  | .attestationInvalid what => "attestation invalid: " ++ what
  | .measurementNotAllowed => "measurement not allowed"
  | .bindingMismatch => "channel binding mismatch"
  | .quotaExceeded => "quota exceeded"
  | .unknown what => "unknown: " ++ what

/-- What an attestation proves: a platform and a build, and whether the kernel has measured it. -/
structure Measurement where
  platform : String
  valueX : List UInt8
  imaVerified : Bool
deriving DecidableEq

/-- `Measurement::new`. -/
def Measurement.new (platform : String) (valueX : List UInt8) : Measurement where
  platform := platform
  valueX := valueX
  imaVerified := false

def Measurement.withImaVerified (m : Measurement) (imaVerified : Bool) : Measurement :=
  { m with imaVerified }

/-- `Measurement::rate_limit_id`. -/
def Measurement.rateLimitId (C : Crypto) (m : Measurement) : List UInt8 :=
  (C.sha256 (utf8 "eat-pass/v0/ratelimit-id" ++ (0 :: (utf8 m.platform ++ (0 :: m.valueX))))).val

/-- `MeasurementClass`: a named set of accepted measurements. -/
structure MeasurementClass where
  name : String
  version : UInt32
  accepted : Finset (List UInt8)
deriving DecidableEq

namespace MeasurementClass

/-- `MeasurementClass::new`. -/
def new (name : String) (version : UInt32) (accepted : List (List UInt8)) : MeasurementClass where
  name := name
  version := version
  accepted := accepted.toFinset

def contains (c : MeasurementClass) (valueX : List UInt8) : Bool :=
  decide (valueX ∈ c.accepted)

/-- `policy_label`: `name@vN`. -/
def policyLabel (c : MeasurementClass) : String :=
  c.name ++ "@v" ++ toString c.version

end MeasurementClass

/-- `AttestationVerifier`: the measurement that the evidence proves for a binding. -/
structure AttestationVerifier where
  verify : List UInt8 → Bytes 32 → Outcome GateError Measurement

/-! ## Authorizations -/

def authorizationVersion : UInt32 := 1

def authDomain : List UInt8 := utf8 "eat-pass/issuance-auth" ++ [0]

structure IssuanceAuthorization where
  version : UInt32
  binding : Bytes 32
  rateLimitId : List UInt8
  policyLabel : String
  maxBatch : UInt32
  exp : UInt64
  iat : UInt64
  sig : List UInt8
deriving DecidableEq

/-- `signed_bytes`: everything except `sig`. -/
def IssuanceAuthorization.signedBytes (auth : IssuanceAuthorization) : List UInt8 :=
  authDomain ++ (leBytes 4 auth.version.toNat ++ (auth.binding.val
    ++ ((leBytes 4 (UInt32.ofNat auth.rateLimitId.length).toNat ++ (auth.rateLimitId
    ++ (leBytes 4 (UInt32.ofNat (utf8 auth.policyLabel).length).toNat ++ utf8 auth.policyLabel)))
    ++ (leBytes 4 auth.maxBatch.toNat ++ (leBytes 8 auth.exp.toNat ++ leBytes 8 auth.iat.toNat)))))

variable (C : Crypto)

/-- `IssuanceAuthorization::verify`. -/
def IssuanceAuthorization.verify (auth : IssuanceAuthorization)
    (attesterPub : C.faest.VerificationKey) (now : UInt64) : Outcome GateError Unit := do
  Outcome.require (auth.version = authorizationVersion)
    (.attestationInvalid ("authorization version " ++ toString auth.version
      ++ " unsupported (want " ++ toString authorizationVersion ++ ")"))
  Outcome.require (auth.maxBatch ≠ 0)
    (.attestationInvalid "authorization max_batch must be non-zero")
  Outcome.require (now ≤ auth.exp) (.attestationInvalid "authorization expired")
  Outcome.require (C.faest.verify attesterPub auth.signedBytes auth.sig = true)
    (.attestationInvalid "authorization sig")

/-- `Authorizer`: the attester's signing key and the verifier of evidence. -/
structure Authorizer where
  signer : C.faest.SigningKey
  verifier : AttestationVerifier
  ttlSecs : UInt64
  policyLabel : String

variable {C}

/-- The authorization `sign_authorization` builds, before it is signed. -/
def Authorizer.unsigned (a : Authorizer C) (measurement : Measurement) (binding : Bytes 32)
    (maxBatch : UInt32) (now : UInt64) : IssuanceAuthorization where
  version := authorizationVersion
  binding := binding
  rateLimitId := measurement.rateLimitId C
  policyLabel := a.policyLabel
  maxBatch := maxBatch
  exp := saturatingAddU64 now a.ttlSecs
  iat := now
  sig := []

/-- The same authorization with the attester's signature on it. -/
def Authorizer.signed (a : Authorizer C) (measurement : Measurement) (binding : Bytes 32)
    (maxBatch : UInt32) (now : UInt64) : IssuanceAuthorization :=
  let auth := a.unsigned measurement binding maxBatch now
  { auth with sig := C.faest.sign a.signer auth.signedBytes }

/-- `sign_authorization`. -/
def Authorizer.signAuthorization (a : Authorizer C) (measurement : Measurement)
    (binding : Bytes 32) (maxBatch : UInt32) (now : UInt64) :
    Outcome GateError IssuanceAuthorization := do
  Outcome.require (maxBatch ≠ 0) (.attestationInvalid "max_batch must be non-zero")
  return a.signed measurement binding maxBatch now

/-- `Authorizer::authorize`. -/
def Authorizer.authorize (a : Authorizer C) (eat : List UInt8) (binding : Bytes 32)
    (maxBatch : UInt32) (now : UInt64) : Outcome GateError IssuanceAuthorization := do
  Outcome.require (maxBatch ≠ 0) (.attestationInvalid "max_batch must be non-zero")
  let measurement ← a.verifier.verify eat binding
  a.signAuthorization measurement binding maxBatch now

variable (C)

/-- The checks `issue_authorized_with_limit` makes before it asks the limiter; the batch size. -/
def authorizedBatch (attesterPub : C.faest.VerificationKey) (req : SignRequest)
    (auth : IssuanceAuthorization) (now : UInt64) : Outcome GateError UInt32 := do
  auth.verify C attesterPub now
  let binding := bindingOf C req.body.blinded
  Outcome.require (binding = req.body.binding) .bindingMismatch
  Outcome.require (binding = auth.binding) .bindingMismatch
  let batch := UInt32.ofNat req.body.blinded.length
  Outcome.require (batch ≤ auth.maxBatch)
    (.attestationInvalid ("batch size " ++ toString batch ++ " exceeds authorization max_batch "
      ++ toString auth.maxBatch))
  return batch

/-- The error the issuer answers when the limiter refuses. -/
def RateLimitError.toGateError : RateLimitError → GateError
  | .exceeded => .quotaExceeded
  | .backend what => .unknown ("rate-limit backend: " ++ what)

/--
`issue_authorized_with_limit`. The quota is consumed before `blind_sign` compares the key
versions. `limiterNow` is the time the limiter reads.
-/
def issueAuthorizedWithLimit (R : RateLimiter) (issuer : Issuer)
    (attesterPub : C.faest.VerificationKey) (req : SignRequest) (auth : IssuanceAuthorization)
    (limiter : R.State) (now limiterNow : UInt64) : R.State × Outcome GateError SignResponse :=
  match authorizedBatch C attesterPub req auth now with
  | .err e => (limiter, .err e)
  | .panic => (limiter, .panic)
  | .ok batch =>
    let (limiter, consumed) := R.tryConsume limiter limiterNow auth.rateLimitId batch
    (limiter, do
      consumed.mapErr RateLimitError.toGateError
      (issuer.blindSign C req).mapErr fun e => .unknown e.message)

/-- `issue_gated_with_limit`: the gate and the issuer in one call. -/
def issueGatedWithLimit (R : RateLimiter) (issuer : Issuer) (verifier : AttestationVerifier)
    (req : SignRequest) (eat : List UInt8) (limiter : R.State) (limiterNow : UInt64) :
    R.State × Outcome GateError SignResponse :=
  let binding := bindingOf C req.body.blinded
  if binding ≠ req.body.binding then (limiter, .err .bindingMismatch)
  else match verifier.verify eat binding with
    | .err e => (limiter, .err e)
    | .panic => (limiter, .panic)
    | .ok measurement =>
      let (limiter, consumed) := R.tryConsume limiter limiterNow (measurement.rateLimitId C)
        (UInt32.ofNat req.body.blinded.length)
      (limiter, do
        consumed.mapErr RateLimitError.toGateError
        (issuer.blindSign C req).mapErr fun e => .unknown e.message)

/-! ## What the bytes commit to -/

/--
**Equal signed bytes carry the same binding, batch limit and times.** The binding stands at a fixed
offset from the front and the rest at a fixed offset from the back, so neither needs the lengths of
the two texts in the middle, which are cut off at 32 bits.
-/
theorem signedBytes_inj {a b : IssuanceAuthorization} (h : a.signedBytes = b.signedBytes) :
    a.binding = b.binding ∧ a.maxBatch = b.maxBatch ∧ a.exp = b.exp ∧ a.iat = b.iat := by
  have h1 := List.append_cancel_left h
  obtain ⟨_, h2⟩ := List.append_inj h1 (by simp)
  obtain ⟨hbinding, h3⟩ := append_inj_bytes h2
  obtain ⟨_, h4⟩ := List.append_inj' h3 (by simp)
  obtain ⟨hbatch, h5⟩ := List.append_inj h4 (by simp)
  obtain ⟨hexp, hiat⟩ := List.append_inj h5 (by simp)
  exact ⟨hbinding, leBytes_inj_u32 hbatch, leBytes_inj_u64 hexp, leBytes_inj_u64 hiat⟩

/-- The count and the lengths of a batch fit the integers they are hashed as. -/
def Encodable (blinded : List (List UInt8)) : Prop :=
  blinded.length < 2 ^ 32 ∧ ∀ b ∈ blinded, b.length < 2 ^ 32

theorem lengthPrefixed_append_inj {a b r s : List UInt8} (ha : a.length < 2 ^ 32)
    (hb : b.length < 2 ^ 32) (h : lengthPrefixed a ++ r = lengthPrefixed b ++ s) :
    a = b ∧ r = s := by
  rw [lengthPrefixed, lengthPrefixed, List.append_assoc, List.append_assoc] at h
  obtain ⟨hlen, h1⟩ := List.append_inj h (by simp)
  exact List.append_inj h1 (ofNat_u32_inj ha hb (beBytes_inj_u32 hlen))

/-- Length-prefixed lists with as many members are equal when their concatenations are. -/
theorem flatMap_lengthPrefixed_inj : ∀ {as bs : List (List UInt8)}, as.length = bs.length →
    (∀ a ∈ as, a.length < 2 ^ 32) → (∀ b ∈ bs, b.length < 2 ^ 32) →
    as.flatMap lengthPrefixed = bs.flatMap lengthPrefixed → as = bs
  | [], [], _, _, _, _ => rfl
  | a :: as, b :: bs, hlen, ha, hb, h => by
    rw [List.flatMap_cons, List.flatMap_cons] at h
    obtain ⟨hab, hrest⟩ := lengthPrefixed_append_inj (ha a List.mem_cons_self)
      (hb b List.mem_cons_self) h
    rw [hab, flatMap_lengthPrefixed_inj (Nat.succ.inj hlen)
      (fun x hx => ha x (List.mem_cons_of_mem _ hx))
      (fun x hx => hb x (List.mem_cons_of_mem _ hx)) hrest]

/-- **The hashed message determines the batch.** -/
theorem bindingMessage_inj {as bs : List (List UInt8)} (ha : Encodable as) (hb : Encodable bs)
    (h : bindingMessage as = bindingMessage bs) : as = bs := by
  obtain ⟨hlen, h1⟩ := List.append_inj (List.append_cancel_left h) (by simp)
  have hcount : as.length = bs.length := ofNat_u32_inj ha.1 hb.1 (beBytes_inj_u32 hlen)
  exact flatMap_lengthPrefixed_inj hcount ha.2 hb.2 h1

/-! ## Passed checks -/

variable {C}

theorem IssuanceAuthorization.verify_eq_ok {auth : IssuanceAuthorization}
    {attesterPub : C.faest.VerificationKey} {now : UInt64} {u : Unit} :
    auth.verify C attesterPub now = .ok u ↔ auth.version = authorizationVersion ∧
      auth.maxBatch ≠ 0 ∧ now ≤ auth.exp ∧
      C.faest.verify attesterPub auth.signedBytes auth.sig = true := by
  simp only [IssuanceAuthorization.verify, Outcome.bind_eq_ok, Outcome.require_eq_ok,
    exists_and_left, exists_const]

theorem authorizedBatch_eq_ok {attesterPub : C.faest.VerificationKey} {req : SignRequest}
    {auth : IssuanceAuthorization} {now : UInt64} {batch : UInt32} :
    authorizedBatch C attesterPub req auth now = .ok batch ↔
      auth.verify C attesterPub now = .ok () ∧ req.body.binding = bindingOf C req.body.blinded ∧
      auth.binding = bindingOf C req.body.blinded ∧
      UInt32.ofNat req.body.blinded.length ≤ auth.maxBatch ∧
      batch = UInt32.ofNat req.body.blinded.length := by
  simp only [authorizedBatch, Outcome.bind_eq_ok, Outcome.require_eq_ok, exists_and_left,
    exists_const, Outcome.pure_eq_ok, Outcome.ok.injEq]
  constructor
  · rintro ⟨_, hauth, hreq, hbinding, hbatch, rfl⟩
    exact ⟨hauth, hreq.symm, hbinding.symm, hbatch, rfl⟩
  · rintro ⟨hauth, hreq, hbinding, hbatch, rfl⟩
    exact ⟨(), hauth, hreq.symm, hbinding.symm, hbatch, rfl⟩

/-- The part that the two ways of issuing have in common: the quota is consumed, then the batch is
signed. -/
def consumeAndSign (C : Crypto) (R : RateLimiter) (issuer : Issuer) (req : SignRequest)
    (limiter : R.State) (limiterNow : UInt64) (attestationId : List UInt8) :
    R.State × Outcome GateError SignResponse :=
  let (limiter, consumed) := R.tryConsume limiter limiterNow attestationId
    (UInt32.ofNat req.body.blinded.length)
  (limiter, do
    consumed.mapErr RateLimitError.toGateError
    (issuer.blindSign C req).mapErr fun e => .unknown e.message)

/-- An authorized call consumes and signs once its checks have passed, and does nothing before. -/
theorem issueAuthorizedWithLimit_cases (R : RateLimiter) (issuer : Issuer)
    (attesterPub : C.faest.VerificationKey) (req : SignRequest) (auth : IssuanceAuthorization)
    (limiter : R.State) (now limiterNow : UInt64) :
    (authorizedBatch C attesterPub req auth now = .ok (UInt32.ofNat req.body.blinded.length) ∧
      issueAuthorizedWithLimit C R issuer attesterPub req auth limiter now limiterNow
        = consumeAndSign C R issuer req limiter limiterNow auth.rateLimitId) ∨
    ((issueAuthorizedWithLimit C R issuer attesterPub req auth limiter now limiterNow).1 = limiter ∧
      ∀ resp, (issueAuthorizedWithLimit C R issuer attesterPub req auth limiter now limiterNow).2
        ≠ .ok resp) := by
  unfold issueAuthorizedWithLimit
  cases hb : authorizedBatch C attesterPub req auth now with
  | err e => exact .inr ⟨rfl, by simp⟩
  | panic => exact .inr ⟨rfl, by simp⟩
  | ok batch =>
    obtain ⟨_, _, _, _, rfl⟩ := authorizedBatch_eq_ok.mp hb
    exact .inl ⟨rfl, rfl⟩

/-- What was checked of an authorization under which the issuer signed. -/
theorem issueAuthorizedWithLimit_ok {R : RateLimiter} {issuer : Issuer}
    {attesterPub : C.faest.VerificationKey} {req : SignRequest} {auth : IssuanceAuthorization}
    {limiter limiter' : R.State} {now limiterNow : UInt64} {resp : SignResponse}
    (h : issueAuthorizedWithLimit C R issuer attesterPub req auth limiter now limiterNow
      = (limiter', .ok resp)) :
    C.faest.verify attesterPub auth.signedBytes auth.sig = true ∧ now ≤ auth.exp ∧
      auth.binding = bindingOf C req.body.blinded ∧
      UInt32.ofNat req.body.blinded.length ≤ auth.maxBatch := by
  unfold issueAuthorizedWithLimit at h
  cases hb : authorizedBatch C attesterPub req auth now with
  | err e => rw [hb] at h; cases h
  | panic => rw [hb] at h; cases h
  | ok batch =>
    obtain ⟨hauth, _, hbinding, hbatch, _⟩ := authorizedBatch_eq_ok.mp hb
    obtain ⟨_, _, hexp, hsig⟩ := IssuanceAuthorization.verify_eq_ok.mp hauth
    exact ⟨hsig, hexp, hbinding, hbatch⟩

/-- **An authorization that is current lets its batch through**, once the quota is available. -/
theorem issueAuthorizedWithLimit_eq_ok {R : RateLimiter} {issuer : Issuer}
    {attesterPub : C.faest.VerificationKey} {req : SignRequest} {auth : IssuanceAuthorization}
    {limiter limiter' : R.State} {now limiterNow : UInt64} {resp : SignResponse}
    (hauth : auth.verify C attesterPub now = .ok ())
    (hreq : req.body.binding = bindingOf C req.body.blinded)
    (hbinding : auth.binding = bindingOf C req.body.blinded)
    (hbatch : UInt32.ofNat req.body.blinded.length ≤ auth.maxBatch)
    (hquota : R.tryConsume limiter limiterNow auth.rateLimitId
      (UInt32.ofNat req.body.blinded.length) = (limiter', .ok ()))
    (hsign : issuer.blindSign C req = .ok resp) :
    issueAuthorizedWithLimit C R issuer attesterPub req auth limiter now limiterNow
      = (limiter', .ok resp) := by
  have hchecks := authorizedBatch_eq_ok.mpr ⟨hauth, hreq, hbinding, hbatch, rfl⟩
  unfold issueAuthorizedWithLimit
  rw [hchecks]
  simp only [hquota, hsign, Outcome.mapErr_ok, Outcome.ok_bind]

/-- `authorize` fails only with what the verifier answers, as long as it is asked for a batch. -/
theorem Authorizer.authorize_eq (a : Authorizer C) (eat : List UInt8) (binding : Bytes 32)
    {maxBatch : UInt32} (hne : maxBatch ≠ 0) (now : UInt64) :
    a.authorize eat binding maxBatch now = (a.verifier.verify eat binding >>= fun measurement =>
      .ok (a.signed measurement binding maxBatch now)) := by
  unfold Authorizer.authorize Authorizer.signAuthorization
  simp only [Outcome.require_pos hne, Outcome.ok_bind, Outcome.pure_eq_ok]

theorem Authorizer.signAuthorization_eq_ok {a : Authorizer C} {measurement : Measurement}
    {binding : Bytes 32} {maxBatch : UInt32} {now : UInt64} {auth : IssuanceAuthorization} :
    a.signAuthorization measurement binding maxBatch now = .ok auth ↔
      maxBatch ≠ 0 ∧ auth = a.signed measurement binding maxBatch now := by
  simp only [Authorizer.signAuthorization, Outcome.bind_eq_ok, Outcome.require_eq_ok,
    exists_and_left, exists_const, Outcome.pure_eq_ok, Outcome.ok.injEq]
  exact and_congr_right fun _ => eq_comm

/-- **What the attester signed verifies at the issuer until it expires.** -/
theorem Authorizer.verify_signed (hf : C.faest.Complete) {a : Authorizer C}
    {attesterPub : C.faest.VerificationKey}
    (hpub : C.faest.verifyingKeyFromBytes (C.faest.publicBytesFromSk a.signer) = some attesterPub)
    (measurement : Measurement) (binding : Bytes 32) {maxBatch : UInt32} (hne : maxBatch ≠ 0)
    {iat now : UInt64} (hnow : now ≤ saturatingAddU64 iat a.ttlSecs) :
    (a.signed measurement binding maxBatch iat).verify C attesterPub now = .ok () := by
  obtain ⟨vk, hvk, hsig⟩ := hf a.signer
  rw [hpub] at hvk
  cases hvk
  exact IssuanceAuthorization.verify_eq_ok.mpr ⟨rfl, hne, hnow, hsig _⟩

end EatPass
