import Mathlib.Data.List.Find
import EatPass.Policy.Appraise

/-!
# The policy gate against its purpose

What a policy is meant to grant is stated here without the functions that decide it: the policy has
not expired, the identity is listed in the field that its profile demands with a status that the
registry minimum accepts, and the assurance tier is allowed. `appraise` and `registry_status_for`
look at either field of an entry; that this makes no difference is a matter of what `validate`
accepts.

* `WellFormed.names_eq` — an entry names an identity in the demanded field
* `verifyWithAppraisal_spec` — the gate, in both directions
-/

namespace EatPass

open Infra

/-! ## Which field of an entry names an identity -/

/-- A field that is not set holds no identity. -/
theorem ne_some_of_isSet {value : Option (List UInt8)} {id : List UInt8}
    (hset : isSet value = false) (hne : id ≠ []) : (value == some id) = false := by
  rw [beq_eq_false_iff_ne]
  rintro rfl
  simp [isSet, hne] at hset

/-- **An entry that `validate` accepts names an identity in the field its profile demands.** -/
theorem AllowEntry.WellFormed.names_eq {profile : EvidenceProfile} {e : AllowEntry}
    (h : e.WellFormed profile) {id : List UInt8} (hne : id ≠ []) :
    e.names id = (e.demanded profile == some id) := by
  have hother := ne_some_of_isSet h.other hne
  unfold AllowEntry.names
  unfold AllowEntry.demanded
  unfold AllowEntry.other at hother
  by_cases happ : profile.namesApps = true
  · rw [if_pos happ] at hother ⊢
    rw [hother, Bool.false_or]
  · rw [if_neg happ] at hother ⊢
    rw [hother, Bool.or_false]

/-! ## What a policy grants -/

namespace VerificationPolicy

/-- The first entry for the identity, by the field that the profile demands. -/
def entryFor (p : VerificationPolicy) (id : List UInt8) : Option AllowEntry :=
  p.allow.find? fun e => e.demanded p.evidenceProfile == some id

/-- What a policy is meant to let in. -/
structure Grants (tiers : AssuranceTiers) (p : VerificationPolicy) (now : Int) (m : Measurement) :
    Prop where
  notExpired : ∀ u, p.validUntil = some u → now ≤ u
  listed : ∃ e, p.entryFor m.valueX = some e ∧
    ∀ status, e.registryStatus = some status → p.registryMinimum.accepts status = true
  tier : ∃ actual, TrustTier.fromLabel (tiers m.platform m.imaVerified).1 = some actual ∧
    p.minTier.rank ≤ actual.rank
  detail : p.allowedTierDetails ≠ [] → (tiers m.platform m.imaVerified).2 ∈ p.allowedTierDetails

theorem isExpired_eq_false_iff {p : VerificationPolicy} {now : Int} :
    p.isExpired now = false ↔ ∀ u, p.validUntil = some u → now ≤ u := by
  unfold isExpired
  cases p.validUntil with
  | none => simp
  | some u => simp

theorem registryOk_iff {p : VerificationPolicy} {status : Option String} :
    p.registryOk status = true ↔ ∀ s, status = some s → p.registryMinimum.accepts s = true := by
  cases status with
  | none => simp [registryOk]
  | some s => simp [registryOk]

/-- For an identity that is not empty, the first entry for it is found by the demanded field. -/
theorem admits_iff {p : VerificationPolicy} (hvalid : p.validate = .ok ()) {id : List UInt8}
    (hne : id ≠ []) :
    p.admits id = true ↔ ∃ e, p.entryFor id = some e ∧
      ∀ status, e.registryStatus = some status → p.registryMinimum.accepts status = true := by
  have hentries := (validate_eq_ok.mp hvalid).entries
  have hfind : (p.allow.find? fun e => e.names id) = p.entryFor id :=
    List.find?_congr fun e he => (hentries e he).names_eq hne
  rw [admits_eq_firstMatch, firstMatch, hfind, Option.any_eq_true]
  simp only [registryOk_iff]

theorem tierAllowed_iff {tiers : AssuranceTiers} {p : VerificationPolicy} {platform : String}
    {ima : Bool} :
    p.tierAllowed tiers platform ima = true ↔
      (∃ actual, TrustTier.fromLabel (tiers platform ima).1 = some actual ∧
        p.minTier.rank ≤ actual.rank) ∧
      (p.allowedTierDetails ≠ [] → (tiers platform ima).2 ∈ p.allowedTierDetails) := by
  have htier : p.tierOk tiers platform ima = true ↔
      ∃ actual, TrustTier.fromLabel (tiers platform ima).1 = some actual ∧
        p.minTier.rank ≤ actual.rank := by
    unfold tierOk TrustTier.accepts
    cases TrustTier.fromLabel (tiers platform ima).1 with
    | none => simp
    | some actual => simp
  have hdetail : p.tierDetailOk tiers platform ima = true ↔
      (p.allowedTierDetails ≠ [] → (tiers platform ima).2 ∈ p.allowedTierDetails) := by
    unfold tierDetailOk
    rw [Bool.or_eq_true, List.isEmpty_iff, List.any_eq_true]
    constructor
    · rintro (hempty | ⟨detail, hmem, heq⟩) hne
      · exact absurd hempty hne
      · exact eq_of_beq heq ▸ hmem
    · intro h
      by_cases hempty : p.allowedTierDetails = []
      · exact .inl hempty
      · exact .inr ⟨_, h hempty, beq_self_eq_true _⟩
  rw [tierAllowed, Bool.and_eq_true, htier, hdetail]

/-- The checks of the gate together are what the policy grants. -/
theorem grants_iff {tiers : AssuranceTiers} {p : VerificationPolicy} {now : Int} {m : Measurement}
    (hvalid : p.validate = .ok ()) (hne : m.valueX ≠ []) :
    p.Grants tiers now m ↔ p.isExpired now = false ∧ p.admits m.valueX = true ∧
      p.tierAllowed tiers m.platform m.imaVerified = true := by
  rw [isExpired_eq_false_iff, admits_iff hvalid hne, tierAllowed_iff]
  exact ⟨fun h => ⟨h.notExpired, h.listed, h.tier, h.detail⟩,
    fun ⟨hexp, hlisted, htier, hdetail⟩ => ⟨hexp, hlisted, htier, hdetail⟩⟩

end VerificationPolicy

/-! ## The gate -/

/-- On success the gate returns the measurement of the inner verifier, in the result as well. -/
theorem PolicyGated.verifyWithAppraisal_eq_ok {g : PolicyGated} {tiers : AssuranceTiers} {now : Int}
    {eat : List UInt8} {binding : Bytes 32} {m : Measurement} {result : AppraisalResult} :
    g.verifyWithAppraisal tiers now eat binding = .ok (m, result) ↔
      g.inner.verify eat binding = .ok m ∧
        result = appraise tiers g.policy (claims g.policy m) now ∧ result.pass = true := by
  simp only [verifyWithAppraisal, Outcome.bind_eq_ok, Outcome.require_eq_ok, Outcome.pure_eq_ok,
    Outcome.ok.injEq, Prod.mk.injEq]
  constructor
  · rintro ⟨_, hinner, _, hpass, rfl, rfl⟩
    exact ⟨hinner, rfl, hpass⟩
  · rintro ⟨hinner, rfl, hpass⟩
    exact ⟨m, hinner, (), hpass, rfl, rfl⟩

/-- An appraisal that passes carries the measurement it was made of. -/
theorem PolicyGated.measurement_of_pass {tiers : AssuranceTiers} {policy : VerificationPolicy}
    {m : Measurement} {now : Int}
    (hpass : (appraise tiers policy (claims policy m) now).pass = true) :
    (appraise tiers policy (claims policy m) now).measurement = some m := by
  have hidentity := identity_claims policy m
  show (if (appraise tiers policy (claims policy m) now).pass = true then
    (claims policy m).identity.map fun valueX =>
      (Measurement.new (claims policy m).platform valueX).withImaVerified
        (claims policy m).imaVerified
    else none) = some m
  rw [if_pos hpass, hidentity]
  rfl

/--
**The gate accepts a verdict exactly when the policy grants it.** For every valid policy, inner
verifier, evidence, binding and time: a verdict whose identity is not empty is accepted if and only
if the policy grants it; what is returned is the measurement of the verdict, on its own and in the
appraisal; and an error of the inner verifier is returned as it is.
-/
theorem PolicyGated.verifyWithAppraisal_spec {g : PolicyGated} (hvalid : g.policy.validate = .ok ())
    (tiers : AssuranceTiers) (now : Int) (eat : List UInt8) (binding : Bytes 32) :
    (∀ m, g.inner.verify eat binding = .ok m → m.valueX ≠ [] →
      ((∃ r, g.verifyWithAppraisal tiers now eat binding = .ok r) ↔
        g.policy.Grants tiers now m)) ∧
    (∀ m result, g.verifyWithAppraisal tiers now eat binding = .ok (m, result) →
      g.inner.verify eat binding = .ok m ∧ result.measurement = some m) ∧
    (∀ e, g.inner.verify eat binding = .err e →
      g.verifyWithAppraisal tiers now eat binding = .err e) := by
  refine ⟨fun m hinner hne => ?_, fun m result hok => ?_, fun e herr => ?_⟩
  · rw [VerificationPolicy.grants_iff hvalid hne, ← appraise_pass_iff]
    constructor
    · rintro ⟨⟨m', result⟩, hok⟩
      obtain ⟨hinner', rfl, hpass⟩ := verifyWithAppraisal_eq_ok.mp hok
      rw [hinner] at hinner'
      cases hinner'
      exact hpass
    · intro hpass
      exact ⟨_, verifyWithAppraisal_eq_ok.mpr ⟨hinner, rfl, hpass⟩⟩
  · obtain ⟨hinner, rfl, hpass⟩ := verifyWithAppraisal_eq_ok.mp hok
    exact ⟨hinner, measurement_of_pass hpass⟩
  · rw [verifyWithAppraisal, herr, Outcome.err_bind]

/-- A policy for one app. -/
def oneAppPolicy (entry : AllowEntry) : VerificationPolicy where
  version := 1
  id := "apps"
  validUntil := none
  evidenceProfile := .androidKeyAttestation
  «class» := ⟨"accepted-apps", 1⟩
  registryMinimum := .recommended
  minTier := .deviceAttested
  allowedTierDetails := []
  allow := [entry]
  requireIma := false
  bootAggregates := []
  desktopTpmEkRoots := []
  desktopTpmActivationPubkeys := []
  notes := none

/-- The tier of a phone. -/
def phoneTiers : AssuranceTiers := fun _ _ => ("device-attested", "key-attestation")

/-- A phone with the listed app is let in. -/
theorem verifyWithAppraisal_spec_app :
    (∃ r, (PolicyGated.mk ⟨fun _ _ => .ok (.new "android" [1])⟩
        (oneAppPolicy ⟨none, some [1], some "recommended"⟩)).verifyWithAppraisal phoneTiers 0 []
        ⟨List.replicate 32 0, rfl⟩ = .ok r) ↔
      (oneAppPolicy ⟨none, some [1], some "recommended"⟩).Grants phoneTiers 0
        (.new "android" [1]) :=
  (@PolicyGated.verifyWithAppraisal_spec (PolicyGated.mk ⟨fun _ _ => .ok (.new "android" [1])⟩
    (oneAppPolicy ⟨none, some [1], some "recommended"⟩)) (by decide +kernel) phoneTiers 0 []
    ⟨List.replicate 32 0, rfl⟩).1 (.new "android" [1]) rfl (List.cons_ne_nil _ _)

end EatPass
