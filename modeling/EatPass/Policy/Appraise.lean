import Mathlib.Data.Finset.SDiff
import EatPass.Infra.FirstMatch
import EatPass.Policy.Schema

/-!
# Appraising evidence under a policy

`policy/src/appraise.rs`, `gated.rs` and `diff.rs`. A verifier of evidence says which build or app
it is from; `appraise` decides whether the policy lets it in, and `PolicyGated` puts the two
together. `diff` is what an operator compares two policies with.

The assurance tier of a platform comes from `unified_quote`, so it is a parameter.

* `PolicyGated.verify_eq_ok` — what the gate accepts
* `diff_isEmpty` — what an empty diff compares
-/

namespace EatPass

open Infra

/-- `unified_quote::tiers::assurance_tier`: the tier of a platform and its detail. -/
abbrev AssuranceTiers := String → Bool → String × String

inductive CheckId where
  | policyNotExpired
  | profileMatch
  | bindingOk
  | referenceValueMatch
  | registryStatus
  | minTier
  | tierDetailAllowed
deriving DecidableEq

/-- The `Debug` text of the check. -/
def CheckId.name : CheckId → String
  | .policyNotExpired => "PolicyNotExpired"
  | .profileMatch => "ProfileMatch"
  | .bindingOk => "BindingOk"
  | .referenceValueMatch => "ReferenceValueMatch"
  | .registryStatus => "RegistryStatus"
  | .minTier => "MinTier"
  | .tierDetailAllowed => "TierDetailAllowed"

structure AppraisalResult where
  pass : Bool
  policyId : String
  classLabel : String
  tier : String
  tierDetail : String
  notes : Option String
  checks : List (CheckId × Bool)
  measurement : Option Measurement
  reason : Option String
deriving DecidableEq

/-- What was claimed, once the cryptography has been checked. -/
structure AppraisalClaims where
  evidenceProfile : EvidenceProfile
  platform : String
  measurement : Option (List UInt8)
  appIdHash : Option (List UInt8)
  bindingOk : Bool
  imaVerified : Bool
  registryStatus : Option String
deriving DecidableEq

/-! ## The checks -/

/-- The entry is for this identity, as a build or as an app. -/
def AllowEntry.names (e : AllowEntry) (identity : List UInt8) : Bool :=
  e.measurement == some identity || e.appIdHash == some identity

namespace VerificationPolicy

/-- Some entry is for the identity. -/
def inAllow (p : VerificationPolicy) (identity : List UInt8) : Bool :=
  p.allow.any fun e => e.names identity

/-- A status is accepted if there is none. -/
def registryOk (p : VerificationPolicy) : Option String → Bool
  | none => true
  | some status => p.registryMinimum.accepts status

/-- The tier is known and at or above the minimum. -/
def tierOk (tiers : AssuranceTiers) (p : VerificationPolicy) (platform : String) (ima : Bool) :
    Bool :=
  ((TrustTier.fromLabel (tiers platform ima).1).map fun actual => p.minTier.accepts actual).getD
    false

/-- The tier detail is allowed. -/
def tierDetailOk (tiers : AssuranceTiers) (p : VerificationPolicy) (platform : String)
    (ima : Bool) : Bool :=
  p.allowedTierDetails.isEmpty ||
    p.allowedTierDetails.any fun allowed => allowed == (tiers platform ima).2

/-- The class of the policy as a label. -/
def classLabel (p : VerificationPolicy) : String := p.class.name ++ "@v" ++ toString p.class.version

/-- An attester takes the same label from the anonymity set. -/
theorem policyLabel_measurementClass (p : VerificationPolicy) :
    p.measurementClass.policyLabel = p.classLabel := rfl

end VerificationPolicy

/-- The identity a claim is about. -/
def AppraisalClaims.identity (claims : AppraisalClaims) : Option (List UInt8) :=
  claims.measurement.or claims.appIdHash

/-- The seven checks, in their order. -/
def appraisalChecks (tiers : AssuranceTiers) (policy : VerificationPolicy)
    (claims : AppraisalClaims) (now : Int) : List (CheckId × Bool) :=
  [(.policyNotExpired, !policy.isExpired now),
    (.profileMatch, claims.evidenceProfile == policy.evidenceProfile),
    (.bindingOk, claims.bindingOk),
    (.referenceValueMatch, claims.identity.any policy.inAllow),
    (.registryStatus, policy.registryOk claims.registryStatus),
    (.minTier, policy.tierOk tiers claims.platform claims.imaVerified),
    (.tierDetailAllowed, policy.tierDetailOk tiers claims.platform claims.imaVerified)]

/-- `fail_reason`: the first check that failed. -/
def failReason (checks : List (CheckId × Bool)) : String :=
  match checks.find? fun check => !check.2 with
  | some (id, _) => "failed check: " ++ id.name
  | none => "unknown"

/-- `appraise`. -/
def appraise (tiers : AssuranceTiers) (policy : VerificationPolicy) (claims : AppraisalClaims)
    (now : Int) : AppraisalResult :=
  let checks := appraisalChecks tiers policy claims now
  let pass := checks.all Prod.snd
  { pass
    policyId := policy.id
    classLabel := policy.classLabel
    tier := (tiers claims.platform claims.imaVerified).1
    tierDetail := (tiers claims.platform claims.imaVerified).2
    notes := policy.notes
    checks
    measurement :=
      if pass then claims.identity.map fun valueX =>
        (Measurement.new claims.platform valueX).withImaVerified claims.imaVerified
      else none
    reason := if pass then none else some (failReason checks) }

/-- `eat-pass policy simulate`, `simulate` in `cli/src/policy.rs`: the claims that an operator wrote
down are appraised under a policy, which is validated as it is read. -/
def simulate (tiers : AssuranceTiers) (policy : VerificationPolicy) (claims : AppraisalClaims)
    (now : Int) : Outcome PolicyError AppraisalResult := do
  policy.validate
  return appraise tiers policy claims now

/-! ## The gate -/

/-- `registry_status_for`: the status of the first entry for the identity. -/
def registryStatusFor (policy : VerificationPolicy) (identity : List UInt8) : Option String :=
  (policy.allow.find? fun e => e.names identity).bind AllowEntry.registryStatus

/-- `PolicyGated`. -/
structure PolicyGated where
  inner : AttestationVerifier
  policy : VerificationPolicy

namespace PolicyGated

/-- The claims that the verdict of the inner verifier is turned into. -/
def claims (policy : VerificationPolicy) (measurement : Measurement) : AppraisalClaims :=
  let (measurementClaim, appIdClaim) := match policy.evidenceProfile with
    | .androidKeyAttestation | .iosAppAttest | .macOsAppAttest => (none, some measurement.valueX)
    | _ => (some measurement.valueX, none)
  { evidenceProfile := policy.evidenceProfile
    platform := measurement.platform
    measurement := measurementClaim
    appIdHash := appIdClaim
    bindingOk := true
    imaVerified := measurement.imaVerified
    registryStatus := registryStatusFor policy measurement.valueX }

/-- `verify_with_appraisal`, at a time. -/
def verifyWithAppraisal (g : PolicyGated) (tiers : AssuranceTiers) (now : Int)
    (eat : List UInt8) (expectedBinding : Bytes 32) :
    Outcome GateError (Measurement × AppraisalResult) := do
  let measurement ← g.inner.verify eat expectedBinding
  let result := appraise tiers g.policy (claims g.policy measurement) now
  Outcome.require (result.pass = true)
    (.attestationInvalid (result.reason.getD "policy denied"))
  return (measurement, result)

/-- `verify`, at a time. -/
def verifier (g : PolicyGated) (tiers : AssuranceTiers) (now : Int) : AttestationVerifier where
  verify eat expectedBinding := do
    let (measurement, _) ← g.verifyWithAppraisal tiers now eat expectedBinding
    return measurement

end PolicyGated

/-! ## What the gate accepts -/

namespace VerificationPolicy

/-- The identity is listed, and the status of its first entry is accepted. -/
def admits (p : VerificationPolicy) (identity : List UInt8) : Bool :=
  p.inAllow identity && p.registryOk (registryStatusFor p identity)

/-- The tier of the platform and its detail are accepted. -/
def tierAllowed (tiers : AssuranceTiers) (p : VerificationPolicy) (platform : String)
    (ima : Bool) : Bool :=
  p.tierOk tiers platform ima && p.tierDetailOk tiers platform ima

end VerificationPolicy

/-- The first entry for an identity decides whether it is admitted. -/
theorem VerificationPolicy.admits_eq_firstMatch (p : VerificationPolicy) (id : List UInt8) :
    p.admits id
      = firstMatch (fun e => e.names id) (fun e => p.registryOk e.registryStatus) p.allow := by
  unfold admits inAllow registryStatusFor firstMatch
  cases hfind : p.allow.find? fun e => e.names id with
  | none =>
    rw [List.any_eq_false.mpr (List.find?_eq_none.mp hfind)]
    rfl
  | some e =>
    rw [List.any_eq_true.mpr ⟨e, List.mem_of_find?_eq_some hfind, List.find?_some hfind⟩]
    rfl

/-- Whatever the profile, the claim is about the identity of the verdict. -/
theorem PolicyGated.identity_claims (policy : VerificationPolicy) (m : Measurement) :
    (claims policy m).identity = some m.valueX := by
  unfold claims AppraisalClaims.identity
  cases policy.evidenceProfile <;> rfl

/-- **The appraisal of a verdict passes exactly when the policy is not expired, admits the
identity and allows the tier.** -/
theorem PolicyGated.appraise_pass_iff (tiers : AssuranceTiers) (policy : VerificationPolicy)
    (m : Measurement) (now : Int) :
    (appraise tiers policy (claims policy m) now).pass = true ↔
      policy.isExpired now = false ∧ policy.admits m.valueX = true ∧
        policy.tierAllowed tiers m.platform m.imaVerified = true := by
  have hprofile : ((claims policy m).evidenceProfile == policy.evidenceProfile) = true :=
    beq_self_eq_true _
  unfold appraise appraisalChecks VerificationPolicy.admits VerificationPolicy.tierAllowed
  simp only [identity_claims, hprofile, List.all_cons, List.all_nil, Option.any_some,
    Bool.and_eq_true, Bool.not_eq_true', Bool.and_true]
  constructor
  · rintro ⟨hexp, _, _, hallow, hregistry, htier, hdetail⟩
    exact ⟨hexp, ⟨hallow, hregistry⟩, htier, hdetail⟩
  · rintro ⟨hexp, ⟨hallow, hregistry⟩, htier, hdetail⟩
    exact ⟨hexp, trivial, rfl, hallow, hregistry, htier, hdetail⟩

/-- **What the gate accepts**: a verdict of the inner verifier that passes the policy. -/
theorem PolicyGated.verify_eq_ok {g : PolicyGated} {tiers : AssuranceTiers} {now : Int}
    {eat : List UInt8} {binding : Bytes 32} {m : Measurement} :
    (g.verifier tiers now).verify eat binding = .ok m ↔
      g.inner.verify eat binding = .ok m ∧ g.policy.isExpired now = false ∧
        g.policy.admits m.valueX = true ∧
        g.policy.tierAllowed tiers m.platform m.imaVerified = true := by
  rw [← PolicyGated.appraise_pass_iff]
  simp only [verifier, verifyWithAppraisal, Outcome.bind_eq_ok, Outcome.require_eq_ok,
    Outcome.pure_eq_ok, Outcome.ok.injEq]
  constructor
  · rintro ⟨_, ⟨m', hinner, _, hpass, rfl⟩, rfl⟩
    exact ⟨hinner, hpass⟩
  · rintro ⟨hinner, hpass⟩
    exact ⟨_, ⟨m, hinner, (), hpass, rfl⟩, rfl⟩

/-! ## Comparing policies -/

/-- `PolicyDiff`. The source lists the two sets of ids in the order of a `HashSet`. -/
structure PolicyDiff where
  leftId : String
  rightId : String
  sameClass : Bool
  sameProfile : Bool
  sameMinTier : Bool
  sameTierDetails : Bool
  validUntilChanged : Bool
  addedAllow : Finset (List Char)
  removedAllow : Finset (List Char)
  notesChanged : Bool
deriving DecidableEq

/-- `allow_id_hex`. -/
def allowIdHex (entry : AllowEntry) : Option (List Char) :=
  (entry.measurement.or entry.appIdHash).map Hex.encode

/-- The ids `diff` computes for a policy, which it collects into a set. -/
def allowIds (p : VerificationPolicy) : List (List Char) := p.allow.filterMap allowIdHex

/-- `diff`. -/
def diff (left right : VerificationPolicy) : PolicyDiff where
  leftId := left.id
  rightId := right.id
  sameClass := left.class.name == right.class.name && left.class.version == right.class.version
  sameProfile := left.evidenceProfile == right.evidenceProfile
  sameMinTier := left.minTier == right.minTier
  sameTierDetails := left.allowedTierDetails == right.allowedTierDetails
  validUntilChanged := left.validUntil != right.validUntil
  addedAllow := (allowIds right).toFinset \ (allowIds left).toFinset
  removedAllow := (allowIds left).toFinset \ (allowIds right).toFinset
  notesChanged := left.notes != right.notes

/-- `PolicyDiff::is_empty`. -/
def PolicyDiff.isEmpty (d : PolicyDiff) : Bool :=
  d.sameClass && d.sameProfile && d.sameMinTier && d.sameTierDetails && !d.validUntilChanged
    && decide (d.addedAllow = ∅) && decide (d.removedAllow = ∅) && !d.notesChanged

/-- What an empty diff says about the fields that the gate looks at. -/
theorem diff_isEmpty {left right : VerificationPolicy} (h : (diff left right).isEmpty = true) :
    left.evidenceProfile = right.evidenceProfile ∧ left.minTier = right.minTier ∧
      left.allowedTierDetails = right.allowedTierDetails ∧ left.validUntil = right.validUntil := by
  simp only [PolicyDiff.isEmpty, diff, Bool.and_eq_true, beq_iff_eq, Bool.not_eq_true',
    bne_eq_false_iff_eq] at h
  obtain ⟨⟨⟨⟨⟨⟨⟨_, hprofile⟩, htier⟩, hdetails⟩, huntil⟩, _⟩, _⟩, _⟩ := h
  exact ⟨hprofile, htier, hdetails, huntil⟩

/-- Under an empty diff the two policies expire together and allow the same tiers. -/
theorem tierAllowed_eq_of_diff {left right : VerificationPolicy}
    (h : (diff left right).isEmpty = true) (tiers : AssuranceTiers) (platform : String)
    (ima : Bool) : left.tierAllowed tiers platform ima = right.tierAllowed tiers platform ima := by
  obtain ⟨_, htier, hdetails, _⟩ := diff_isEmpty h
  unfold VerificationPolicy.tierAllowed VerificationPolicy.tierOk VerificationPolicy.tierDetailOk
  rw [htier, hdetails]

theorem isExpired_eq_of_diff {left right : VerificationPolicy}
    (h : (diff left right).isEmpty = true) (now : Int) :
    left.isExpired now = right.isExpired now := by
  obtain ⟨_, _, _, huntil⟩ := diff_isEmpty h
  unfold VerificationPolicy.isExpired
  rw [huntil]

end EatPass
