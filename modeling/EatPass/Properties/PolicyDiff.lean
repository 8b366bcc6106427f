import EatPass.Cli.Attester

/-!
# What the policy diff misses

`eat-pass policy diff` compares two policies by class, profile, tier, validity, notes and the ids
in their allow lists. The gate looks at more: at the registry status of an entry, at the minimum
the policy demands, and for desktop TPM evidence at everything the verifier is built from.

* `DecisionFieldsAgree` — the fields that decide and that the diff does not compare
* `sameDecisions_iff` — under an empty diff, two policies decide alike exactly when these agree,
  or when neither of them accepts anything
-/

namespace EatPass

open Infra

/-! ## Gates of an attester -/

/-- The library takes the pinned roots and keys as sets. -/
def TpmLibrary.PinsAsSets (tpm : TpmLibrary) : Prop :=
  ∀ now bundle binding (o o' : TpmVerifierOptions),
    (∀ r, r ∈ o.ekRootSha256 ↔ r ∈ o'.ekRootSha256) →
    (∀ k, k ∈ o.activationPubkeys ↔ k ∈ o'.activationPubkeys) →
    ∀ v, tpm.verifyBundleWithOptions now bundle binding o = .ok v →
      tpm.verifyBundleWithOptions now bundle binding o' = .ok v

/-- The gate for a policy, with any verdict of the inner verifier. The verifier of desktop TPM
evidence is built from the policy itself. -/
def attesterGate (tpm : TpmLibrary) (inner : AttestationVerifier) (tiers : AssuranceTiers)
    (p : VerificationPolicy) (now : Int) : AttestationVerifier :=
  PolicyGated.verifier ⟨if p.evidenceProfile = .desktopTpmClient
    then p.desktopTpmVerifier.verifier tpm now else inner, p⟩ tiers now

/-- The gate accepts the evidence. -/
def AttestationVerifier.Accepts (v : AttestationVerifier) (eat : List UInt8)
    (binding : Bytes 32) : Prop :=
  ∃ m, v.verify eat binding = .ok m

/-- A gate accepts what its inner verifier accepts with a measurement that passes the policy. -/
theorem PolicyGated.accepts_iff {g : PolicyGated} {tiers : AssuranceTiers} {now : Int}
    {eat : List UInt8} {binding : Bytes 32} :
    (g.verifier tiers now).Accepts eat binding ↔
      ∃ m, g.inner.verify eat binding = .ok m ∧ g.policy.isExpired now = false ∧
        g.policy.admits m.valueX = true ∧
        g.policy.tierAllowed tiers m.platform m.imaVerified = true := by
  simp only [AttestationVerifier.Accepts, PolicyGated.verify_eq_ok]

/-- **The attesters of the two policies accept the same evidence**, whatever the verifiers say and
at any time. -/
def SameDecisions (tiers : AssuranceTiers) (left right : VerificationPolicy) : Prop :=
  ∀ (tpm : TpmLibrary) (inner : AttestationVerifier) (now : Int) (eat : List UInt8)
    (binding : Bytes 32), tpm.PinsAsSets →
    ((attesterGate tpm inner tiers left now).Accepts eat binding ↔
      (attesterGate tpm inner tiers right now).Accepts eat binding)

/-- The gate of an attester is that gate. -/
theorem Backend.gate_eq {backend : Backend} {p : VerificationPolicy}
    (h : p.evidenceProfile = backend.profile) (uq : UnifiedQuote) (now : Int) :
    backend.gate uq p now
      = attesterGate uq.tpm (backend.verifier uq p now) uq.assuranceTier p now := by
  unfold Backend.gate attesterGate
  rw [h]
  cases backend <;> rfl

/-- Two policies that decide alike give attesters that accept the same evidence, with every gate
they can be started with. -/
theorem SameDecisions.gate {left right : VerificationPolicy} {uq : UnifiedQuote}
    (h : SameDecisions uq.assuranceTier left right) (huq : uq.tpm.PinsAsSets) {backend : Backend}
    (hleft : left.evidenceProfile = backend.profile)
    (hright : right.evidenceProfile = backend.profile) (now : Int) (eat : List UInt8)
    (binding : Bytes 32) :
    (backend.gate uq left now).Accepts eat binding ↔
      (backend.gate uq right now).Accepts eat binding := by
  rw [Backend.gate_eq hleft, Backend.gate_eq hright,
    h uq.tpm (backend.verifier uq left now) now eat binding huq]
  unfold attesterGate
  rw [hright]
  cases backend <;> rfl

theorem SameDecisions.symm {tiers : AssuranceTiers} {left right : VerificationPolicy}
    (h : SameDecisions tiers left right) : SameDecisions tiers right left :=
  fun tpm inner now eat binding htpm => (h tpm inner now eat binding htpm).symm

/-! ## Verdicts that pass -/

/-- A verdict on a desktop TPM bundle passes the verifier and the policy. -/
def VerificationPolicy.Passes (tiers : AssuranceTiers) (p : VerificationPolicy) (now : Int)
    (verdict : TpmVerdict) : Prop :=
  ∃ m, p.desktopTpmVerifier.Accepts verdict m ∧ p.isExpired now = false ∧
    p.admits m.valueX = true ∧ p.tierAllowed tiers m.platform m.imaVerified = true

/-- What passes of the verified verdicts on one build. -/
theorem VerificationPolicy.passes_iff {tiers : AssuranceTiers} {p : VerificationPolicy} {now : Int}
    {verdict : TpmVerdict} {id : List UInt8} (hverified : verdict.verdict = "verified")
    (hid : Hex.decode verdict.identityHash.toList = some id) :
    p.Passes tiers now verdict ↔
      (p.requireIma = true → verdict.imaVerified = true) ∧
        DesktopTpmVerifier.bootOk p.bootAggregatesBytes verdict.bootAggregate = true ∧
        p.isExpired now = false ∧ p.admits id = true ∧
        p.tierAllowed tiers verdict.platform verdict.imaVerified = true := by
  constructor
  · rintro ⟨m, hm, hexp, hadmits, htier⟩
    have hsame : m.valueX = id := Option.some.inj (hm.identity.symm.trans hid)
    rw [hsame] at hadmits
    rw [hm.platform, hm.imaVerified] at htier
    exact ⟨hm.ima, hm.boot, hexp, hadmits, htier⟩
  · rintro ⟨hima, hboot, hexp, hadmits, htier⟩
    exact ⟨⟨verdict.platform, id, verdict.imaVerified⟩, ⟨hverified, hima, hboot, hid, rfl, rfl⟩,
      hexp, hadmits, htier⟩

/-- Some verdict can pass: an identity is admitted, and a tier allowed that has the measured log
where the policy requires it. -/
def VerificationPolicy.Passable (tiers : AssuranceTiers) (p : VerificationPolicy) : Prop :=
  ∃ m : Measurement, p.admits m.valueX = true ∧
    p.tierAllowed tiers m.platform m.imaVerified = true ∧
    (p.evidenceProfile = .desktopTpmClient → p.requireIma = true → m.imaVerified = true)

section Gate

variable {tpm : TpmLibrary} {inner : AttestationVerifier} {tiers : AssuranceTiers}
  {p : VerificationPolicy} {now : Int} {eat : List UInt8} {binding : Bytes 32}

/-- The gate with the desktop TPM verifier accepts the bundles whose verdict passes. -/
theorem desktopGate_accepts_iff :
    (PolicyGated.verifier ⟨p.desktopTpmVerifier.verifier tpm now, p⟩ tiers now).Accepts eat
      binding ↔ ∃ bundle verdict, tpm.fromJson eat = .ok bundle ∧
        tpm.verifyBundleWithOptions now bundle binding p.desktopTpmVerifier.tpmOptions
          = .ok verdict ∧ p.Passes tiers now verdict := by
  simp only [PolicyGated.accepts_iff, DesktopTpmVerifier.verify_eq_ok]
  constructor
  · rintro ⟨m, ⟨bundle, verdict, hbundle, hverdict, hm⟩, hpolicy⟩
    exact ⟨bundle, verdict, hbundle, hverdict, m, hm, hpolicy⟩
  · rintro ⟨bundle, verdict, hbundle, hverdict, m, hm, hpolicy⟩
    exact ⟨m, ⟨bundle, verdict, hbundle, hverdict, hm⟩, hpolicy⟩

theorem attesterGate_desktop (hp : p.evidenceProfile = .desktopTpmClient) :
    (attesterGate tpm inner tiers p now).Accepts eat binding ↔
      ∃ bundle verdict, tpm.fromJson eat = .ok bundle ∧
        tpm.verifyBundleWithOptions now bundle binding p.desktopTpmVerifier.tpmOptions
          = .ok verdict ∧ p.Passes tiers now verdict := by
  unfold attesterGate
  rw [if_pos hp]
  exact desktopGate_accepts_iff

theorem attesterGate_inner (hp : p.evidenceProfile ≠ .desktopTpmClient) :
    (attesterGate tpm inner tiers p now).Accepts eat binding ↔
      ∃ m, inner.verify eat binding = .ok m ∧ p.isExpired now = false ∧
        p.admits m.valueX = true ∧ p.tierAllowed tiers m.platform m.imaVerified = true := by
  unfold attesterGate
  rw [if_neg hp]
  exact PolicyGated.accepts_iff

/-- A gate that accepts anything belongs to a policy under which something can pass. -/
theorem passable_of_accepts (h : (attesterGate tpm inner tiers p now).Accepts eat binding) :
    p.Passable tiers := by
  by_cases hp : p.evidenceProfile = .desktopTpmClient
  · obtain ⟨_, verdict, _, _, m, hm, _, hadmits, htier⟩ := (attesterGate_desktop hp).mp h
    refine ⟨m, hadmits, htier, fun _ hreq => ?_⟩
    rw [hm.imaVerified]
    exact hm.ima hreq
  · obtain ⟨m, _, _, hadmits, htier⟩ := (attesterGate_inner hp).mp h
    exact ⟨m, hadmits, htier, fun hdesktop => absurd hdesktop hp⟩

end Gate

/-! ## The fields that decide -/

/-- The policies agree on what the diff does not compare: on the identities they admit, and for
desktop TPM evidence on what the verifier is built from. -/
structure DecisionFieldsAgree (tiers : AssuranceTiers) (left right : VerificationPolicy) :
    Prop where
  admits : ∀ id, left.admits id = right.admits id
  /-- Requiring a measured log makes no difference where every allowed tier has one. -/
  requireIma : left.evidenceProfile = .desktopTpmClient →
    ∀ platform, left.tierAllowed tiers platform false = true → left.requireIma = right.requireIma
  bootAggregates : left.evidenceProfile = .desktopTpmClient →
    ∀ b, b ∈ left.bootAggregatesBytes ↔ b ∈ right.bootAggregatesBytes
  ekRoots : left.evidenceProfile = .desktopTpmClient →
    ∀ r, r ∈ left.desktopTpmEkRootsBytes ↔ r ∈ right.desktopTpmEkRootsBytes
  activationPubkeys : left.evidenceProfile = .desktopTpmClient →
    ∀ k, k ∈ left.desktopTpmActivationPubkeysBytes ↔ k ∈ right.desktopTpmActivationPubkeysBytes

section Diff

variable {tiers : AssuranceTiers} {left right : VerificationPolicy}

theorem diff_isEmpty_symm (h : (diff left right).isEmpty = true) :
    (diff right left).isEmpty = true := by
  simp only [PolicyDiff.isEmpty, diff, Bool.and_eq_true, beq_iff_eq, Bool.not_eq_true',
    bne_eq_false_iff_eq] at h ⊢
  obtain ⟨⟨⟨⟨⟨⟨⟨⟨hname, hversion⟩, hprofile⟩, htier⟩, hdetails⟩, huntil⟩, hadded⟩, hremoved⟩,
    hnotes⟩ := h
  exact ⟨⟨⟨⟨⟨⟨⟨⟨hname.symm, hversion.symm⟩, hprofile.symm⟩, htier.symm⟩, hdetails.symm⟩,
    huntil.symm⟩, hremoved⟩, hadded⟩, hnotes.symm⟩

theorem DecisionFieldsAgree.symm (h : DecisionFieldsAgree tiers left right)
    (hdiff : (diff left right).isEmpty = true) : DecisionFieldsAgree tiers right left := by
  have hprofile := (diff_isEmpty hdiff).1
  refine ⟨fun id => (h.admits id).symm, fun hp platform htier => ?_, fun hp b => ?_,
    fun hp r => ?_, fun hp k => ?_⟩
  · rw [← tierAllowed_eq_of_diff hdiff] at htier
    exact (h.requireIma (hprofile.trans hp) platform htier).symm
  · exact (h.bootAggregates (hprofile.trans hp) b).symm
  · exact (h.ekRoots (hprofile.trans hp) r).symm
  · exact (h.activationPubkeys (hprofile.trans hp) k).symm

/-- Lists with the same members accept the same boot states. -/
theorem bootOk_congr {as bs : List (Bytes 32)} (h : ∀ b, b ∈ as ↔ b ∈ bs)
    (aggregate : Option String) :
    DesktopTpmVerifier.bootOk as aggregate = DesktopTpmVerifier.bootOk bs aggregate := by
  have hempty : as.isEmpty = bs.isEmpty := by
    rw [Bool.eq_iff_iff, List.isEmpty_iff, List.isEmpty_iff, List.eq_nil_iff_forall_not_mem,
      List.eq_nil_iff_forall_not_mem]
    simp only [h]
  have hany : ∀ x : List UInt8, (as.any fun a => a.val == x) = bs.any fun a => a.val == x := by
    intro x
    rw [Bool.eq_iff_iff, List.any_eq_true, List.any_eq_true]
    simp only [h]
  unfold DesktopTpmVerifier.bootOk
  simp only [hempty, hany]

/-- What passes under one policy passes under the other. -/
theorem DecisionFieldsAgree.passes (h : DecisionFieldsAgree tiers left right)
    (hdiff : (diff left right).isEmpty = true) (hp : left.evidenceProfile = .desktopTpmClient)
    {now : Int} {verdict : TpmVerdict} (hpass : left.Passes tiers now verdict) :
    right.Passes tiers now verdict := by
  obtain ⟨m, hm, hexp, hadmits, htier⟩ := hpass
  refine ⟨m, ⟨hm.verified, fun hreq => ?_, ?_, hm.identity, hm.platform, hm.imaVerified⟩, ?_, ?_,
    ?_⟩
  · cases hima : verdict.imaVerified with
    | true => rfl
    | false =>
      -- a tier without a measured log was allowed, so the left policy requires none either
      rw [hm.imaVerified, hima] at htier
      have hsame := h.requireIma hp _ htier
      have hleft : left.requireIma = true := hsame.trans hreq
      rw [← hima]
      exact hm.ima hleft
  · exact (bootOk_congr (h.bootAggregates hp) _).symm.trans hm.boot
  · rw [← isExpired_eq_of_diff hdiff]
    exact hexp
  · rw [← h.admits]
    exact hadmits
  · rw [← tierAllowed_eq_of_diff hdiff]
    exact htier

/-- What one gate accepts the other accepts. -/
theorem DecisionFieldsAgree.accepts (h : DecisionFieldsAgree tiers left right)
    (hdiff : (diff left right).isEmpty = true) {tpm : TpmLibrary} (htpm : tpm.PinsAsSets)
    {inner : AttestationVerifier} {now : Int} {eat : List UInt8} {binding : Bytes 32}
    (haccepts : (attesterGate tpm inner tiers left now).Accepts eat binding) :
    (attesterGate tpm inner tiers right now).Accepts eat binding := by
  have hprofile := (diff_isEmpty hdiff).1
  by_cases hp : left.evidenceProfile = .desktopTpmClient
  · obtain ⟨bundle, verdict, hbundle, hverdict, hpass⟩ := (attesterGate_desktop hp).mp haccepts
    refine (attesterGate_desktop (hprofile.symm.trans hp)).mpr
      ⟨bundle, verdict, hbundle, ?_, h.passes hdiff hp hpass⟩
    exact htpm now bundle binding _ _ (h.ekRoots hp) (h.activationPubkeys hp) verdict hverdict
  · obtain ⟨m, hinner, hexp, hadmits, htier⟩ := (attesterGate_inner hp).mp haccepts
    refine (attesterGate_inner fun hright => hp (hprofile.trans hright)).mpr
      ⟨m, hinner, ?_, ?_, ?_⟩
    · rw [← isExpired_eq_of_diff hdiff]
      exact hexp
    · rw [← h.admits]
      exact hadmits
    · rw [← tierAllowed_eq_of_diff hdiff]
      exact htier

theorem DecisionFieldsAgree.sameDecisions (h : DecisionFieldsAgree tiers left right)
    (hdiff : (diff left right).isEmpty = true) : SameDecisions tiers left right :=
  fun _ _ _ _ _ htpm =>
    ⟨h.accepts hdiff htpm, (h.symm hdiff).accepts (diff_isEmpty_symm hdiff) htpm⟩

end Diff

/-! ## Telling policies apart -/

/-- A library that verifies every bundle with one verdict, if it likes the options. -/
def TpmLibrary.answering (likes : TpmVerifierOptions → Bool) (verdict : TpmVerdict) :
    TpmLibrary where
  Bundle := Unit
  fromJson _ := .ok ()
  verifyBundleWithOptions _ _ _ o := if likes o then .ok verdict else .error "untrusted"

/-- The verdict on a bundle of a build. -/
def verifiedVerdict (platform : String) (ima : Bool) (boot : Option String) (id : List UInt8) :
    TpmVerdict where
  verdict := "verified"
  platform := platform
  identityHash := String.ofList (Hex.encode id)
  imaVerified := ima
  bootAggregate := boot

theorem passes_verifiedVerdict {tiers : AssuranceTiers} {p : VerificationPolicy} {now : Int}
    {platform : String} {ima : Bool} {boot : Option String} {id : List UInt8} :
    p.Passes tiers now (verifiedVerdict platform ima boot id) ↔
      (p.requireIma = true → ima = true) ∧
        DesktopTpmVerifier.bootOk p.bootAggregatesBytes boot = true ∧ p.isExpired now = false ∧
        p.admits id = true ∧ p.tierAllowed tiers platform ima = true :=
  VerificationPolicy.passes_iff rfl (by simp [verifiedVerdict])

/-- Some boot state is always accepted. -/
theorem exists_bootOk : ∀ boots : List (Bytes 32), ∃ boot,
    DesktopTpmVerifier.bootOk boots boot = true
  | [] => ⟨none, rfl⟩
  | a :: rest => ⟨some (String.ofList (Hex.encode a.val)), by simp [DesktopTpmVerifier.bootOk]⟩

/-- Lists that accept the same boot states have the same members. -/
theorem mem_of_bootOk {as bs : List (Bytes 32)}
    (h : ∀ boot, DesktopTpmVerifier.bootOk as boot = true →
      DesktopTpmVerifier.bootOk bs boot = true) {b : Bytes 32} (hb : b ∈ as)
    (hne : bs ≠ []) : b ∈ bs := by
  have hok : DesktopTpmVerifier.bootOk as (some (String.ofList (Hex.encode b.val))) = true := by
    simp only [DesktopTpmVerifier.bootOk, Option.bind_some, String.toList_ofList,
      Hex.decode_encode, Option.map_some, Option.getD_some, Bool.or_eq_true, List.any_eq_true]
    exact .inr ⟨b, hb, beq_self_eq_true _⟩
  have hother := h _ hok
  simp only [DesktopTpmVerifier.bootOk, Option.bind_some, String.toList_ofList,
    Hex.decode_encode, Option.map_some, Option.getD_some, Bool.or_eq_true, List.any_eq_true,
    List.isEmpty_iff, beq_iff_eq] at hother
  obtain hnil | ⟨a, ha, hval⟩ := hother
  · exact absurd hnil hne
  · rw [← Subtype.ext hval]
    exact ha

/-- An empty list is told from another one by a bundle without a boot state. -/
theorem ne_nil_of_bootOk {as bs : List (Bytes 32)}
    (h : ∀ boot, DesktopTpmVerifier.bootOk bs boot = true →
      DesktopTpmVerifier.bootOk as boot = true) (hne : as ≠ []) : bs ≠ [] := by
  rintro rfl
  have hnone := h none rfl
  simp [DesktopTpmVerifier.bootOk, hne] at hnone

section Necessary

variable {tiers : AssuranceTiers} {left right : VerificationPolicy}

/-- Policies that decide alike and have another profile admit the same identities. -/
theorem SameDecisions.admits_of_inner (h : SameDecisions tiers left right)
    (hdiff : (diff left right).isEmpty = true) (hp : left.evidenceProfile ≠ .desktopTpmClient)
    {m : Measurement} (htier : left.tierAllowed tiers m.platform m.imaVerified = true)
    (id : List UInt8) : left.admits id = right.admits id := by
  obtain ⟨hprofile, _⟩ := diff_isEmpty hdiff
  obtain ⟨now, hnow⟩ := left.exists_not_expired
  have hpr : right.evidenceProfile ≠ .desktopTpmClient := fun he => hp (hprofile.trans he)
  let tpm : TpmLibrary := .answering (fun _ => true) (verifiedVerdict "" false none [])
  have htpm : tpm.PinsAsSets := fun _ _ _ _ _ _ _ _ hv => hv
  have hsame := h tpm ⟨fun _ _ => .ok { m with valueX := id }⟩ now []
    ⟨List.replicate 32 0, List.length_replicate⟩ htpm
  rw [attesterGate_inner hp, attesterGate_inner hpr] at hsame
  simp only [Outcome.ok.injEq, exists_eq_left', ← isExpired_eq_of_diff hdiff, hnow,
    ← tierAllowed_eq_of_diff hdiff, htier, true_and, and_true] at hsame
  exact Bool.eq_iff_iff.mpr hsame

/-- At a time at which the policies are valid, a library tells them apart only if it can tell
their options apart. -/
theorem SameDecisions.passes_iff (h : SameDecisions tiers left right)
    (hdiff : (diff left right).isEmpty = true) (hp : left.evidenceProfile = .desktopTpmClient)
    {likes : TpmVerifierOptions → Bool} {verdict : TpmVerdict}
    (hlikes : (TpmLibrary.answering likes verdict).PinsAsSets) (now : Int) :
    (likes left.desktopTpmVerifier.tpmOptions = true ∧ left.Passes tiers now verdict ↔
      likes right.desktopTpmVerifier.tpmOptions = true ∧ right.Passes tiers now verdict) := by
  have hpr : right.evidenceProfile = .desktopTpmClient := (diff_isEmpty hdiff).1.symm.trans hp
  have hsame := h (.answering likes verdict) ⟨fun _ _ => .err .bindingMismatch⟩ now []
    ⟨List.replicate 32 0, List.length_replicate⟩ hlikes
  have hgate : ∀ {p : VerificationPolicy}, p.evidenceProfile = .desktopTpmClient →
      ((attesterGate (.answering likes verdict) ⟨fun _ _ => .err .bindingMismatch⟩ tiers p
        now).Accepts [] ⟨List.replicate 32 0, List.length_replicate⟩ ↔
        likes p.desktopTpmVerifier.tpmOptions = true ∧ p.Passes tiers now verdict) := by
    intro p hdesktop
    rw [attesterGate_desktop hdesktop]
    simp only [TpmLibrary.answering]
    by_cases hlike : likes p.desktopTpmVerifier.tpmOptions = true
    · simp [hlike]
    · simp [hlike]
  rwa [hgate hp, hgate hpr] at hsame

/-- Policies for desktop TPM evidence that decide alike, and under which something can pass. -/
theorem SameDecisions.agree_of_desktop (h : SameDecisions tiers left right)
    (hdiff : (diff left right).isEmpty = true) (hp : left.evidenceProfile = .desktopTpmClient)
    (hpass : left.Passable tiers) : DecisionFieldsAgree tiers left right := by
  obtain ⟨m, hadmits, htier, hima⟩ := hpass
  obtain ⟨boot, hboot⟩ := exists_bootOk left.bootAggregatesBytes
  obtain ⟨now, hnow⟩ := left.exists_not_expired
  have hnow' : right.isExpired now = false := isExpired_eq_of_diff hdiff now ▸ hnow
  have hconst : ∀ v, (TpmLibrary.answering (fun _ => true) v).PinsAsSets :=
    fun _ _ _ _ _ _ _ _ _ hv => hv
  have hiff : ∀ platform ima boot id,
      left.Passes tiers now (verifiedVerdict platform ima boot id) ↔
        right.Passes tiers now (verifiedVerdict platform ima boot id) := by
    intro platform ima boot id
    simpa using h.passes_iff hdiff hp (hconst (verifiedVerdict platform ima boot id)) now
  simp only [passes_verifiedVerdict] at hiff
  -- one verdict that both let through; the others change one of its parts
  have hleft : left.Passes tiers now (verifiedVerdict m.platform m.imaVerified boot m.valueX) :=
    passes_verifiedVerdict.mpr ⟨hima hp, hboot, hnow, hadmits, htier⟩
  have hright : right.Passes tiers now (verifiedVerdict m.platform m.imaVerified boot m.valueX) :=
    passes_verifiedVerdict.mpr ((hiff _ _ _ _).mp (passes_verifiedVerdict.mp hleft))
  obtain ⟨hima', hboot', _, hadmits', htier'⟩ := passes_verifiedVerdict.mp hright
  have hboots : ∀ b, DesktopTpmVerifier.bootOk left.bootAggregatesBytes b = true ↔
      DesktopTpmVerifier.bootOk right.bootAggregatesBytes b = true := by
    intro b
    constructor
    · exact fun hb => ((hiff _ _ _ _).mp ⟨hima hp, hb, hnow, hadmits, htier⟩).2.1
    · exact fun hb => ((hiff _ _ _ _).mpr ⟨hima', hb, hnow', hadmits', htier'⟩).2.1
  refine ⟨fun id => ?_, fun _ platform htierF => ?_, fun _ b => ?_, fun _ r => ?_, fun _ k => ?_⟩
  · rw [Bool.eq_iff_iff]
    constructor
    · exact fun hid => ((hiff _ _ _ _).mp ⟨hima hp, hboot, hnow, hid, htier⟩).2.2.2.1
    · exact fun hid => ((hiff _ _ _ _).mpr ⟨hima', hboot', hnow', hid, htier'⟩).2.2.2.1
  · have htierF' : right.tierAllowed tiers platform false = true :=
      tierAllowed_eq_of_diff hdiff tiers platform false ▸ htierF
    have hreq := hiff platform false boot m.valueX
    simp only [hboot, hboot', hnow, hnow', hadmits, hadmits', htierF, htierF', and_true] at hreq
    cases hl : left.requireIma <;> cases hr : right.requireIma <;> simp_all
  · constructor
    · intro hb
      exact mem_of_bootOk (fun boot => (hboots boot).mp) hb
        (ne_nil_of_bootOk (fun boot => (hboots boot).mpr) (List.ne_nil_of_mem hb))
    · intro hb
      exact mem_of_bootOk (fun boot => (hboots boot).mpr) hb
        (ne_nil_of_bootOk (fun boot => (hboots boot).mp) (List.ne_nil_of_mem hb))
  · have hpins : (TpmLibrary.answering (fun o => decide (r ∈ o.ekRootSha256))
        (verifiedVerdict m.platform m.imaVerified boot m.valueX)).PinsAsSets := by
      intro _ _ _ o o' hek _ v hv
      simpa [TpmLibrary.answering, hek r] using hv
    have hroot := h.passes_iff hdiff hp hpins now
    simp only [hleft, hright, and_true, decide_eq_true_eq] at hroot
    exact hroot
  · have hpins : (TpmLibrary.answering (fun o => decide (k ∈ o.activationPubkeys))
        (verifiedVerdict m.platform m.imaVerified boot m.valueX)).PinsAsSets := by
      intro _ _ _ o o' _ hkey v hv
      simpa [TpmLibrary.answering, hkey k] using hv
    have hkey := h.passes_iff hdiff hp hpins now
    simp only [hleft, hright, and_true, decide_eq_true_eq] at hkey
    exact hkey

theorem SameDecisions.agree (h : SameDecisions tiers left right)
    (hdiff : (diff left right).isEmpty = true) (hpass : left.Passable tiers) :
    DecisionFieldsAgree tiers left right := by
  by_cases hp : left.evidenceProfile = .desktopTpmClient
  · exact h.agree_of_desktop hdiff hp hpass
  · obtain ⟨m, _, htier, _⟩ := hpass
    exact ⟨h.admits_of_inner hdiff hp htier, fun he => absurd he hp, fun he => absurd he hp,
      fun he => absurd he hp, fun he => absurd he hp⟩

end Necessary

/--
**Two policies with an empty diff give attesters that accept the same evidence exactly when they
agree on the fields that decide and are not compared**, or when neither of them can accept
anything.
-/
theorem sameDecisions_iff (tiers : AssuranceTiers) {left right : VerificationPolicy}
    (hdiff : (diff left right).isEmpty = true) :
    SameDecisions tiers left right ↔
      (left.Passable tiers ∨ right.Passable tiers → DecisionFieldsAgree tiers left right) := by
  constructor
  · rintro h (hpass | hpass)
    · exact h.agree hdiff hpass
    · exact (h.symm.agree (diff_isEmpty_symm hdiff) hpass).symm (diff_isEmpty_symm hdiff)
  · intro hagree
    by_cases hpass : left.Passable tiers ∨ right.Passable tiers
    · exact (hagree hpass).sameDecisions hdiff
    · intro tpm inner now eat binding _
      constructor
      · exact fun h => absurd (.inl (passable_of_accepts h)) hpass
      · exact fun h => absurd (.inr (passable_of_accepts h)) hpass

/-- A policy with one build, which the registry lists as deprecated. -/
def deprecatedBuildPolicy (minimum : RegistryMinimum) : VerificationPolicy where
  version := 1
  id := "builds"
  validUntil := none
  evidenceProfile := .azureSnpBundle
  «class» := ⟨"accepted-builds", 1⟩
  registryMinimum := minimum
  minTier := .softwareWitness
  allowedTierDetails := []
  allow := [⟨some [1, 2, 3], none, some "deprecated"⟩]
  requireIma := false
  bootAggregates := []
  desktopTpmEkRoots := []
  desktopTpmActivationPubkeys := []
  notes := none

/-- The tier of the Azure platform. -/
def azureTiers : AssuranceTiers := fun _ _ => ("silicon-cvm", "sev-snp")

theorem diff_registryMinimum_isEmpty :
    (diff (deprecatedBuildPolicy .deprecated) (deprecatedBuildPolicy .recommended)).isEmpty
      = true := by
  decide +kernel

theorem sameDecisions_iff_registryMinimum :
    SameDecisions azureTiers (deprecatedBuildPolicy .deprecated)
        (deprecatedBuildPolicy .recommended) ↔
      ((deprecatedBuildPolicy .deprecated).Passable azureTiers ∨
        (deprecatedBuildPolicy .recommended).Passable azureTiers →
        DecisionFieldsAgree azureTiers (deprecatedBuildPolicy .deprecated)
          (deprecatedBuildPolicy .recommended)) :=
  sameDecisions_iff azureTiers diff_registryMinimum_isEmpty

/-- A gate whose verifier has found the build of the policy. -/
def deprecatedBuildGate (minimum : RegistryMinimum) : AttestationVerifier :=
  attesterGate (.answering (fun _ => false) (verifiedVerdict "" false none []))
    ⟨fun _ _ => .ok (.new "azure-sev-snp-vtpm" [1, 2, 3])⟩ azureTiers
    (deprecatedBuildPolicy minimum) 0

/--
Two policies that differ in `registry_minimum` alone: both are valid and their diff is empty, but
the one accepts the deprecated build and the other refuses it.
-/
theorem diff_misses_registryMinimum :
    (deprecatedBuildPolicy .deprecated).validate = .ok () ∧
    (deprecatedBuildPolicy .recommended).validate = .ok () ∧
    (diff (deprecatedBuildPolicy .deprecated) (deprecatedBuildPolicy .recommended)).isEmpty
      = true ∧
    (deprecatedBuildGate .deprecated).verify [] ⟨List.replicate 32 0, rfl⟩
      = .ok (.new "azure-sev-snp-vtpm" [1, 2, 3]) ∧
    (deprecatedBuildGate .recommended).verify [] ⟨List.replicate 32 0, rfl⟩
      = .err (.attestationInvalid "failed check: RegistryStatus") ∧
    ¬ SameDecisions azureTiers (deprecatedBuildPolicy .deprecated)
      (deprecatedBuildPolicy .recommended) := by
  have haccepts : (deprecatedBuildGate .deprecated).verify [] ⟨List.replicate 32 0, rfl⟩
      = .ok (.new "azure-sev-snp-vtpm" [1, 2, 3]) := by decide +kernel
  have hrefuses : (deprecatedBuildGate .recommended).verify [] ⟨List.replicate 32 0, rfl⟩
      = .err (.attestationInvalid "failed check: RegistryStatus") := by decide +kernel
  refine ⟨by decide +kernel, by decide +kernel, diff_registryMinimum_isEmpty, haccepts, hrefuses,
    fun hsame => ?_⟩
  have hpins : (TpmLibrary.answering (fun _ => false) (verifiedVerdict "" false none
      [])).PinsAsSets := fun _ _ _ _ _ _ _ _ hv => hv
  obtain ⟨m, hm⟩ := (hsame _ _ 0 [] ⟨List.replicate 32 0, rfl⟩ hpins).mp ⟨_, haccepts⟩
  rw [show attesterGate _ _ _ _ _ = deprecatedBuildGate .recommended from rfl, hrefuses] at hm
  cases hm

end EatPass
