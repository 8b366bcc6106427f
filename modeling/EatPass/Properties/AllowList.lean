import EatPass.Properties.PolicyDiff
import EatPass.Properties.PolicyGate

/-!
# Reading the allow list

The entries of a policy are read in three places: `appraise` compares an identity with either field
of an entry, while `measurement_class` and `diff` take the first field that is present. And
`registry_status_for` takes the status of the first entry that names the identity, although the
list may name it again with another status.

* `readersAgree_iff` — when the three readings agree on an identity
* `orderFree_iff` — when the order of the entries makes no difference
-/

namespace EatPass

open Infra

variable {p : VerificationPolicy}

/-! ## The three readings -/

theorem AllowEntry.names_iff {e : AllowEntry} {id : List UInt8} :
    e.names id = true ↔ e.measurement = some id ∨ e.appIdHash = some id := by
  rw [names, Bool.or_eq_true, beq_iff_eq, beq_iff_eq]

theorem VerificationPolicy.inAllow_iff {id : List UInt8} :
    p.inAllow id = true ↔ ∃ e ∈ p.allow, e.measurement = some id ∨ e.appIdHash = some id := by
  unfold inAllow
  rw [List.any_eq_true]
  simp only [AllowEntry.names_iff]

/-- The reference check of a claim looks for its identity in the allow list. -/
theorem mem_checks_iff {tiers : AssuranceTiers} {claims : AppraisalClaims} {now : Int}
    {id : List UInt8} (hid : claims.identity = some id) :
    (CheckId.referenceValueMatch, true) ∈ (appraise tiers p claims now).checks ↔
      p.inAllow id = true := by
  simp only [appraise, appraisalChecks, hid, Option.any_some, List.mem_cons, Prod.mk.injEq,
    reduceCtorEq, false_and, List.not_mem_nil, or_false, false_or, true_and]
  exact eq_comm

theorem VerificationPolicy.contains_iff {id : List UInt8} :
    p.measurementClass.contains id = true ↔
      ∃ e ∈ p.allow, e.measurement.or e.appIdHash = some id := by
  simp only [MeasurementClass.contains, measurementClass, MeasurementClass.new,
    decide_eq_true_eq, List.mem_toFinset, List.mem_filterMap]

theorem mem_allowIds_iff {id : List UInt8} :
    Hex.encode id ∈ allowIds p ↔ ∃ e ∈ p.allow, e.measurement.or e.appIdHash = some id := by
  simp only [allowIds, allowIdHex, List.mem_filterMap, Option.map_eq_some_iff]
  constructor
  · rintro ⟨e, he, id', hid', heq⟩
    exact ⟨e, he, Hex.encode_injective heq ▸ hid'⟩
  · rintro ⟨e, he, hid⟩
    exact ⟨e, he, id, hid, rfl⟩

/-- What the class holds is listed. -/
theorem VerificationPolicy.inAllow_of_contains {id : List UInt8}
    (h : p.measurementClass.contains id = true) : p.inAllow id = true := by
  obtain ⟨e, he, hid⟩ := contains_iff.mp h
  refine inAllow_iff.mpr ⟨e, he, ?_⟩
  rcases Option.or_eq_some_iff.mp hid with hm | ⟨_, ha⟩
  · exact .inl hm
  · exact .inr ha

/-- **The readers of the allow list agree on the identity.** -/
structure ReadersAgree (p : VerificationPolicy) (id : List UInt8) : Prop where
  appraise : ∀ tiers claims now, claims.identity = some id →
    ((CheckId.referenceValueMatch, true) ∈ (appraise tiers p claims now).checks ↔
      p.measurementClass.contains id = true)
  diff : p.measurementClass.contains id = true ↔ Hex.encode id ∈ allowIds p

/-- No identity is the measurement of one entry and the app of another one. -/
theorem AllowEntry.WellFormed.not_both {profile : EvidenceProfile} {e f : AllowEntry}
    (he : e.WellFormed profile) (hf : f.WellFormed profile) {id : List UInt8}
    (hm : e.measurement = some id) (ha : f.appIdHash = some id) : False := by
  have hed := he.demanded
  have heo := he.other
  have hfd := hf.demanded
  have hfo := hf.other
  unfold AllowEntry.demanded at hed hfd
  unfold AllowEntry.other at heo hfo
  by_cases happ : profile.namesApps = true
  · rw [if_pos happ, hm] at heo
    rw [if_pos happ, ha] at hfd
    exact Bool.false_ne_true (heo.symm.trans hfd)
  · rw [if_neg happ, hm] at hed
    rw [if_neg happ, ha] at hfo
    exact Bool.false_ne_true (hfo.symm.trans hed)

/--
**The readers agree on an identity exactly when no measurement stands before it alone.** An entry
may have both fields, as long as one of them is empty. If it then is the app of the entry that is
the identity, some entry without a measurement has to name this app too.
-/
theorem readersAgree_iff (hvalid : p.validate = .ok ()) (id : List UInt8) :
    ReadersAgree p id ↔
      ((∃ e ∈ p.allow, e.measurement ≠ none ∧ e.appIdHash = some id) →
        ∃ e ∈ p.allow, e.measurement = none ∧ e.appIdHash = some id) := by
  have hentries := (VerificationPolicy.validate_eq_ok.mp hvalid).entries
  constructor
  · rintro hagree ⟨e, he, hm, ha⟩
    have hmatch := hagree.appraise (fun _ _ => ("", ""))
      ⟨p.evidenceProfile, "", some id, none, true, false, none⟩ 0 rfl
    rw [mem_checks_iff rfl] at hmatch
    have hlisted : p.inAllow id = true := VerificationPolicy.inAllow_iff.mpr ⟨e, he, .inr ha⟩
    obtain ⟨f, hf, hfid⟩ := VerificationPolicy.contains_iff.mp (hmatch.mp hlisted)
    rcases Option.or_eq_some_iff.mp hfid with hfm | ⟨hfnone, hfa⟩
    · exact ((hentries f hf).not_both (hentries e he) hfm ha).elim
    · exact ⟨f, hf, hfnone, hfa⟩
  · intro hcond
    refine ⟨fun tiers claims now hid => ?_, ?_⟩
    · rw [mem_checks_iff hid]
      refine ⟨fun hlisted => ?_, VerificationPolicy.inAllow_of_contains⟩
      obtain ⟨e, he, hm | ha⟩ := VerificationPolicy.inAllow_iff.mp hlisted
      · exact VerificationPolicy.contains_iff.mpr ⟨e, he, Option.or_eq_some_iff.mpr (.inl hm)⟩
      · -- the app of an entry counts where the entry has no measurement
        have hfirst : ∃ f ∈ p.allow, f.measurement = none ∧ f.appIdHash = some id := by
          by_cases hnone : e.measurement = none
          · exact ⟨e, he, hnone, ha⟩
          · exact hcond ⟨e, he, hnone, ha⟩
        obtain ⟨f, hf, hfnone⟩ := hfirst
        exact VerificationPolicy.contains_iff.mpr
          ⟨f, hf, Option.or_eq_some_iff.mpr (.inr hfnone)⟩
    · rw [VerificationPolicy.contains_iff, mem_allowIds_iff]

theorem readersAgree_iff_app :
    ReadersAgree (oneAppPolicy ⟨none, some [1], none⟩) [1] ↔
      ((∃ e ∈ (oneAppPolicy ⟨none, some [1], none⟩).allow,
          e.measurement ≠ none ∧ e.appIdHash = some [1]) →
        ∃ e ∈ (oneAppPolicy ⟨none, some [1], none⟩).allow,
          e.measurement = none ∧ e.appIdHash = some [1]) :=
  readersAgree_iff (by decide +kernel) [1]

/-- A policy for one app, in which the measurement is an empty text. -/
def emptyMeasurementPolicy : VerificationPolicy := oneAppPolicy ⟨some [], some [1], none⟩

/-- The policy is valid and its app passes the reference check, but neither the class nor the diff
has it. -/
theorem emptyMeasurement_disagrees :
    emptyMeasurementPolicy.validate = .ok () ∧
      emptyMeasurementPolicy.inAllow [1] = true ∧
      emptyMeasurementPolicy.measurementClass.contains [1] = false ∧
      Hex.encode [1] ∉ allowIds emptyMeasurementPolicy ∧
      ¬ ReadersAgree emptyMeasurementPolicy [1] := by
  refine ⟨by decide +kernel, by decide +kernel, by decide +kernel, by decide +kernel, ?_⟩
  intro hagree
  have hmatch := hagree.appraise (fun _ _ => ("", ""))
    ⟨.androidKeyAttestation, "", none, some [1], true, false, none⟩ 0 rfl
  exact absurd hmatch (by decide +kernel)

/-! ## The order of the entries -/

/-- The gate decides on the evidence alike in every order of the entries. -/
def OrderFree (tiers : AssuranceTiers) (p : VerificationPolicy) (inner : AttestationVerifier)
    (now : Int) (eat : List UInt8) (binding : Bytes 32) : Prop :=
  ∀ allow, p.allow.Perm allow →
    ((PolicyGated.verifier ⟨inner, { p with allow := allow }⟩ tiers now).Accepts eat binding ↔
      (PolicyGated.verifier ⟨inner, p⟩ tiers now).Accepts eat binding)

/-- The entries that name the identity all have a status that is accepted, or none of them has. -/
def VerificationPolicy.StatusesAgree (p : VerificationPolicy) (id : List UInt8) : Prop :=
  ∀ e ∈ p.allow, ∀ f ∈ p.allow, e.names id = true → f.names id = true →
    p.registryOk e.registryStatus = p.registryOk f.registryStatus

/-- The statuses agree exactly when every order of the entries admits the identity alike. -/
theorem VerificationPolicy.statusesAgree_iff {id : List UInt8} :
    p.StatusesAgree id ↔
      ∀ allow, p.allow.Perm allow → { p with allow := allow }.admits id = p.admits id := by
  simp only [admits_eq_firstMatch]
  exact firstMatch_perm_iff.symm

/-- What the gate accepts, once its inner verifier has accepted the evidence. -/
theorem gate_accepts_iff {tiers : AssuranceTiers} {inner : AttestationVerifier} {now : Int}
    {eat : List UInt8} {binding : Bytes 32} {m : Measurement}
    (hinner : inner.verify eat binding = .ok m) :
    (PolicyGated.verifier ⟨inner, p⟩ tiers now).Accepts eat binding ↔
      p.isExpired now = false ∧ p.admits m.valueX = true ∧
        p.tierAllowed tiers m.platform m.imaVerified = true := by
  simp only [PolicyGated.accepts_iff, hinner, Outcome.ok.injEq, exists_eq_left']

/--
**The order of the entries makes no difference exactly when the entries for the identity agree on
their status**, or when the evidence is refused whatever the list says: by the inner verifier, by
the expiry or by the tier.
-/
theorem orderFree_iff (tiers : AssuranceTiers) (p : VerificationPolicy)
    (inner : AttestationVerifier) (now : Int) (eat : List UInt8) (binding : Bytes 32) :
    OrderFree tiers p inner now eat binding ↔
      ∀ m, inner.verify eat binding = .ok m → p.isExpired now = false →
        p.tierAllowed tiers m.platform m.imaVerified = true → p.StatusesAgree m.valueX := by
  constructor
  · intro hfree m hinner hexp htier
    refine VerificationPolicy.statusesAgree_iff.mpr fun allow hperm => ?_
    have hsame := hfree allow hperm
    rw [gate_accepts_iff hinner, gate_accepts_iff hinner] at hsame
    have hexp' : { p with allow := allow }.isExpired now = false := hexp
    have htier' : { p with allow := allow }.tierAllowed tiers m.platform m.imaVerified = true :=
      htier
    simp only [hexp, htier, hexp', htier', true_and, and_true] at hsame
    exact Bool.eq_iff_iff.mpr hsame
  · intro hagree allow hperm
    by_cases hok : ∃ m, inner.verify eat binding = .ok m
    · obtain ⟨m, hinner⟩ := hok
      rw [gate_accepts_iff hinner, gate_accepts_iff hinner]
      constructor
      · rintro ⟨hexp, hadmits, htier⟩
        have hsame := VerificationPolicy.statusesAgree_iff.mp (hagree m hinner hexp htier)
        exact ⟨hexp, hsame allow hperm ▸ hadmits, htier⟩
      · rintro ⟨hexp, hadmits, htier⟩
        have hsame := VerificationPolicy.statusesAgree_iff.mp (hagree m hinner hexp htier)
        exact ⟨hexp, (hsame allow hperm).symm ▸ hadmits, htier⟩
    · -- a verifier that refuses the evidence refuses it under any policy
      have hrefuses : ∀ q, ¬ (PolicyGated.verifier ⟨inner, q⟩ tiers now).Accepts eat binding := by
        intro q haccepts
        obtain ⟨m, hinner, _⟩ := PolicyGated.accepts_iff.mp haccepts
        exact hok ⟨m, hinner⟩
      exact ⟨fun h => absurd h (hrefuses _), fun h => absurd h (hrefuses _)⟩

/-- A policy for one build, listed with each of the statuses. -/
def relistedPolicy (statuses : List String) : VerificationPolicy :=
  { oneAppPolicy ⟨none, none, none⟩ with
    evidenceProfile := .azureSnpBundle
    allow := statuses.map fun status => ⟨some [1], none, some status⟩ }

/-- A build listed as recommended and again as revoked is let in by one order of its entries and
refused by the other. -/
theorem listedTwice_order :
    (relistedPolicy ["recommended", "revoked"]).validate = .ok () ∧
      (relistedPolicy ["revoked", "recommended"]).validate = .ok () ∧
      ¬ OrderFree phoneTiers (relistedPolicy ["recommended", "revoked"])
        ⟨fun _ _ => .ok (.new "azure-sev-snp-vtpm" [1])⟩ 0 [] ⟨List.replicate 32 0, rfl⟩ := by
  refine ⟨by decide +kernel, by decide +kernel, fun hfree => ?_⟩
  have hsame := hfree (relistedPolicy ["revoked", "recommended"]).allow (List.Perm.swap _ _ _)
  rw [gate_accepts_iff rfl, gate_accepts_iff rfl] at hsame
  exact absurd hsame (by decide +kernel)

end EatPass
