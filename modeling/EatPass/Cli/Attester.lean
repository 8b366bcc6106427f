import EatPass.Cli.Wire
import EatPass.Gate.Verifiers

/-!
# The attester

The gates that `run` in `cli/src/attester.rs` builds from a policy, and the handler of
`POST /authorize`. The handler keeps no state: what it answers depends on the request and the time
alone. It uses its gate only as an `AttestationVerifier`.
-/

namespace EatPass

open Infra

/-! ## Gates -/

/-- `Backend`: the gate an attester is started with. -/
inductive Backend where
  | uq
  | azure
  | azureTls
  | androidKey
  | iosAppAttest
  | desktopTpm
  | macOsAppAttest
deriving DecidableEq

/-- `evidence_profile_for_gate`: the profile a policy must have for the gate. -/
def Backend.profile : Backend → EvidenceProfile
  | .uq => .uqEat
  | .azure => .azureSnpBundle
  | .azureTls => .azureAttestedTls
  | .androidKey => .androidKeyAttestation
  | .iosAppAttest => .iosAppAttest
  | .desktopTpm => .desktopTpmClient
  | .macOsAppAttest => .macOsAppAttest

/-- The desktop TPM verifier for a policy. -/
def VerificationPolicy.desktopTpmVerifier (p : VerificationPolicy) : DesktopTpmVerifier :=
  .withPolicy p.requireIma p.bootAggregatesBytes p.desktopTpmEkRootsBytes
    p.desktopTpmActivationPubkeysBytes

/-- The verifier behind the gate. -/
def Backend.verifier (uq : UnifiedQuote) (p : VerificationPolicy) (now : Int) :
    Backend → AttestationVerifier
  | .uq => uqVerifier uq.eat now
  | .azure => azureUqVerifier uq.azure now
  | .azureTls => azureTlsVerifier uq.azure now
  | .androidKey => androidKeyAttestationVerifier uq.android now
  | .iosAppAttest => iosAppAttestVerifier uq.ios now
  | .desktopTpm => p.desktopTpmVerifier.verifier uq.tpm now
  | .macOsAppAttest => macOsAppAttestVerifier uq.macOs now

/-- `Gate`: the verifier behind the policy, at a time. -/
def Backend.gate (backend : Backend) (uq : UnifiedQuote) (p : VerificationPolicy) (now : Int) :
    AttestationVerifier :=
  PolicyGated.verifier ⟨backend.verifier uq p now, p⟩ uq.assuranceTier now

/-! ## The handler -/

variable {C : Crypto}

/-- What a request was found to prove: the evidence, the binding it commits to, the measurement. -/
structure Appraisal where
  eat : List UInt8
  binding : Bytes 32
  measurement : Measurement
deriving DecidableEq

/-- The part of the handler before it signs. -/
def Authorizer.appraise (a : Authorizer C) (body : AuthorizeBody) : Reply Appraisal := do
  let eat ← Outcome.ofOption (.badRequest, "eat_b64 is not valid base64")
    (Base64.decode .standard body.eatB64.toList)
  let binding ← Outcome.ofOption (.badRequest, "binding must be 32-byte hex (64 chars)")
    (Hex.decodeArray 32 (trim body.binding.toList))
  Outcome.require (body.maxBatch ≠ 0) (.badRequest, "max_batch must be non-zero")
  let measurement ← (a.verifier.verify eat binding).mapErr GateError.reply
  return { eat, binding, measurement }

/-- The handler `authorize`. -/
def Authorizer.handle (a : Authorizer C) (json : AuthorizationJson) (body : AuthorizeBody)
    (now : UInt64) : Reply AuthorizeResponse := do
  let appraisal ← a.appraise body
  let auth ← (a.signAuthorization appraisal.measurement appraisal.binding body.maxBatch
    now).mapErr GateError.reply
  return { authorizationB64 := String.ofList (Base64.encode .standard (json.toVec auth)) }

/-- What `run` starts an attester with, once it has loaded the policy. -/
structure AttesterConfig (C : Crypto) where
  signer : C.faest.SigningKey
  ttlSecs : UInt64
  backend : Backend
  policy : VerificationPolicy

/-- The `Authorizer` behind the handler; `clock` is the time its gate reads. -/
def AttesterConfig.authorizer (cfg : AttesterConfig C) (uq : UnifiedQuote) (clock : Int) :
    Authorizer C where
  signer := cfg.signer
  verifier := cfg.backend.gate uq cfg.policy clock
  ttlSecs := cfg.ttlSecs
  policyLabel := cfg.policy.classLabel

theorem Authorizer.appraise_ok {a : Authorizer C} {body : AuthorizeBody} {appraisal : Appraisal}
    (h : a.appraise body = .ok appraisal) :
    a.verifier.verify appraisal.eat appraisal.binding = .ok appraisal.measurement := by
  simp only [Authorizer.appraise, Outcome.bind_eq_ok, Outcome.mapErr_eq_ok, Outcome.pure_eq_ok,
    Outcome.ok.injEq] at h
  obtain ⟨eat, _, binding, _, _, _, measurement, hverify, rfl⟩ := h
  exact hverify

/-- What the handler answers is the text of the authorization for what it has appraised. -/
theorem Authorizer.handle_signs {a : Authorizer C} {json : AuthorizationJson} {body : AuthorizeBody}
    {now : UInt64} {response : AuthorizeResponse} (h : a.handle json body now = .ok response) :
    ∃ appraisal, a.appraise body = .ok appraisal ∧ response.authorizationB64
      = String.ofList (Base64.encode .standard (json.toVec
          (a.signed appraisal.measurement appraisal.binding body.maxBatch now))) := by
  simp only [Authorizer.handle, Outcome.bind_eq_ok, Outcome.mapErr_eq_ok, Outcome.pure_eq_ok,
    Outcome.ok.injEq] at h
  obtain ⟨appraisal, happraise, auth, hsign, rfl⟩ := h
  obtain ⟨-, rfl⟩ := Authorizer.signAuthorization_eq_ok.mp hsign
  exact ⟨appraisal, happraise, rfl⟩

/-- **A request for evidence that the gate accepts is authorized.** -/
theorem Authorizer.handle_eq_ok {a : Authorizer C} {eat : List UInt8} {binding : Bytes 32}
    {measurement : Measurement} {maxBatch : UInt32}
    (hverify : a.verifier.verify eat binding = .ok measurement) (hne : maxBatch ≠ 0)
    (json : AuthorizationJson) (now : UInt64) :
    a.handle json ⟨String.ofList (Base64.encode .standard eat),
      String.ofList (Hex.encode binding.val), maxBatch⟩ now
      = .ok ⟨String.ofList (Base64.encode .standard
          (json.toVec (a.signed measurement binding maxBatch now)))⟩ := by
  have hsign : a.signAuthorization measurement binding maxBatch now
      = .ok (a.signed measurement binding maxBatch now) :=
    Authorizer.signAuthorization_eq_ok.mpr ⟨hne, rfl⟩
  simp only [Authorizer.handle, Authorizer.appraise, String.toList_ofList, Base64.decode_encode,
    Hex.trim_encode, Hex.decodeArray_encode, Outcome.ofOption_some, Outcome.ok_bind,
    Outcome.require_pos hne, hverify, Outcome.mapErr_ok, Outcome.pure_eq_ok, hsign]

end EatPass
