import Mathlib.Data.List.Forall2
import EatPass.Properties.PolicyDiff
import EatPass.Properties.PolicyGate

/-!
# Desktop TPM policies

The trust anchors of a desktop TPM policy are texts that `validate` decodes to check them and that
three readers decode again to use them. A reader drops what it cannot decode, and without boot
aggregates any boot state is accepted, so the two decoders have to agree on every text.

What else such a policy demands is split between the verifier and `appraise`. `policy simulate` runs
the second part alone.

* `validate_keeps_anchors` — no anchor is lost between validation and use
* `simulate_predicts_iff` — when the simulation says what the gate does
-/

namespace EatPass

open Infra

variable {p : VerificationPolicy}

/-! ## Trust anchors -/

/-- The text is hexadecimal for the bytes, whitespace around it aside. -/
def HexOf (text : String) (b : Bytes 32) : Prop := Hex.decode (trim text.toList) = some b.val

/-- The root is 64 lower-case digits for the bytes that the text is hexadecimal for. -/
structure LowerHexOf (text root : String) : Prop where
  length : root.toList.length = 64
  digits : ∀ c ∈ root.toList, c ∈ "0123456789abcdef".toList
  bytes : ∃ b, HexOf text b ∧ Hex.decode root.toList = some b.val

/-- A filter that takes every element keeps their order and number. -/
theorem forall₂_filterMap {α β : Type} {f : α → Option β} :
    ∀ l : List α, (∀ a ∈ l, ∃ b, f a = some b) →
      List.Forall₂ (fun a b => f a = some b) l (l.filterMap f)
  | [], _ => .nil
  | a :: rest, h => by
    obtain ⟨b, hb⟩ := h a List.mem_cons_self
    rw [List.filterMap_cons_some hb]
    exact .cons hb (forall₂_filterMap rest fun x hx => h x (List.mem_cons_of_mem _ hx))

theorem exists_of_mem_forall₂ {α β : Type} {R : α → β → Prop} {l : List α} {l' : List β}
    (h : List.Forall₂ R l l') {b : β} (hb : b ∈ l') : ∃ a ∈ l, R a b := by
  induction h with
  | nil => cases hb
  | cons hR _ ih =>
    rcases List.mem_cons.mp hb with rfl | hb
    · exact ⟨_, List.mem_cons_self, hR⟩
    · obtain ⟨a, ha, hab⟩ := ih hb
      exact ⟨a, List.mem_cons_of_mem _ ha, hab⟩

/-- The readers that decode drop none of the texts that `validate` lets pass. -/
theorem forall₂_decodeAll32 {texts : List String} (h : ∀ text ∈ texts, IsHex32 text) :
    List.Forall₂ HexOf texts (VerificationPolicy.decodeAll32 texts) := by
  have hsome : ∀ text ∈ texts, ∃ b, Hex.decodeArray 32 (trim text.toList) = some b := by
    intro text htext
    obtain ⟨b, hb⟩ := h text htext
    exact ⟨b, Hex.decodeArray_eq_some.mpr hb⟩
  exact (forall₂_filterMap texts hsome).imp fun _ _ hb => Hex.decodeArray_eq_some.mp hb

/-- The lower case of a text that `validate` lets pass is the encoding of its bytes. -/
theorem lowerHexOf_map_toLower {text : String} (h : IsHex32 text) :
    LowerHexOf text (String.ofList ((trim text.toList).map Char.toLower)) := by
  obtain ⟨b, hb⟩ := h
  have hlower := (Hex.decode_eq_some_iff _ _).mp hb
  rw [hlower]
  refine ⟨?_, fun c hc => ?_, b, hb, ?_⟩
  · rw [String.toList_ofList, Hex.length_encode, b.property]
  · rw [String.toList_ofList] at hc
    exact Hex.mem_digits_of_mem_encode hc
  · rw [String.toList_ofList, Hex.decode_encode]

/-- **The readers give exactly the anchors that the policy lists, in their order.** -/
structure VerificationPolicy.AnchorsKept (p : VerificationPolicy) : Prop where
  bootAggregates : List.Forall₂ HexOf p.bootAggregates p.bootAggregatesBytes
  activationPubkeys :
    List.Forall₂ HexOf p.desktopTpmActivationPubkeys p.desktopTpmActivationPubkeysBytes
  ekRoots : List.Forall₂ LowerHexOf p.desktopTpmEkRoots p.desktopTpmEkRootsBytes

/-- The boot aggregate of a verdict is there, is hexadecimal and is listed. -/
def VerificationPolicy.ListsBoot (p : VerificationPolicy) (aggregate : Option String) : Prop :=
  ∃ h bytes, aggregate = some h ∧ Hex.decode h.toList = some bytes ∧
    ∃ text ∈ p.bootAggregates, Hex.decode (trim text.toList) = some bytes

theorem VerificationPolicy.Validated.anchorsKept (h : p.Validated) : p.AnchorsKept where
  bootAggregates := forall₂_decodeAll32 h.bootAggregates
  activationPubkeys := forall₂_decodeAll32 h.activationPubkeys
  ekRoots := List.forall₂_map_right_iff.mpr
    (List.forall₂_same.mpr fun text htext => lowerHexOf_map_toLower (h.ekRoots text htext))

/-- Where the anchors are kept, a boot state that the verifier accepts is one of the policy. -/
theorem VerificationPolicy.AnchorsKept.listsBoot (h : p.AnchorsKept) (hne : p.bootAggregates ≠ [])
    {aggregate : Option String}
    (hboot : DesktopTpmVerifier.bootOk p.bootAggregatesBytes aggregate = true) :
    p.ListsBoot aggregate := by
  have hbytes : p.bootAggregatesBytes ≠ [] := by
    intro hnil
    have hlength := h.bootAggregates.length_eq
    rw [hnil, List.length_nil, List.length_eq_zero_iff] at hlength
    exact hne hlength
  unfold DesktopTpmVerifier.bootOk at hboot
  rw [List.isEmpty_eq_false_iff.mpr hbytes, Bool.false_or] at hboot
  cases aggregate with
  | none => cases hboot
  | some text =>
    cases hdecode : Hex.decode text.toList with
    | none =>
      rw [Option.bind_some, hdecode] at hboot
      cases hboot
    | some bytes =>
      rw [Option.bind_some, hdecode, Option.map_some, Option.getD_some, List.any_eq_true] at hboot
      obtain ⟨b, hb, heq⟩ := hboot
      obtain ⟨listed, hlisted, hof⟩ := exists_of_mem_forall₂ h.bootAggregates hb
      exact ⟨text, bytes, rfl, hdecode, listed, hlisted, hof.trans (congrArg some (eq_of_beq heq))⟩

/-- A verified verdict with another boot state is an error. -/
theorem DesktopTpmVerifier.verify_err {v : DesktopTpmVerifier} {lib : TpmLibrary} {now : Int}
    {eat : List UInt8} {binding : Bytes 32} {bundle : lib.Bundle} {verdict : TpmVerdict}
    (hbundle : lib.fromJson eat = .ok bundle)
    (hverdict : lib.verifyBundleWithOptions now bundle binding v.tpmOptions = .ok verdict)
    (hverified : verdict.verdict = "verified")
    (hboot : bootOk v.bootAggregates verdict.bootAggregate ≠ true) :
    ∃ e, (v.verifier lib now).verify eat binding = .err e := by
  simp only [verifier, requireVerified, hbundle, hverdict, ofLibrary, Outcome.ok_bind,
    Outcome.require_pos hverified]
  by_cases hima : v.requireIma = true → verdict.imaVerified = true
  · rw [Outcome.require_pos hima, Outcome.ok_bind, Outcome.require_neg hboot, Outcome.err_bind]
    exact ⟨_, rfl⟩
  · rw [Outcome.require_neg hima, Outcome.err_bind]
    exact ⟨_, rfl⟩

/--
**No trust anchor is lost between validation and use.** The readers of a valid policy give one
anchor for each text, in order and with the bytes of the text, and the roots as 64 lower-case
digits. With boot aggregates in the policy, the verifier that is built from it refuses every
verified verdict whose boot aggregate is missing, not hexadecimal or not listed.
-/
theorem validate_keeps_anchors (hvalid : p.validate = .ok ()) :
    p.AnchorsKept ∧ (p.bootAggregates ≠ [] →
      ∀ (lib : TpmLibrary) (now : Int) (eat : List UInt8) (binding : Bytes 32)
        (bundle : lib.Bundle) (verdict : TpmVerdict), lib.fromJson eat = .ok bundle →
        lib.verifyBundleWithOptions now bundle binding p.desktopTpmVerifier.tpmOptions
          = .ok verdict →
        verdict.verdict = "verified" → ¬ p.ListsBoot verdict.bootAggregate →
        ∃ e, (p.desktopTpmVerifier.verifier lib now).verify eat binding = .err e) := by
  have hkept := (VerificationPolicy.validate_eq_ok.mp hvalid).anchorsKept
  refine ⟨hkept, fun hne lib now eat binding bundle verdict hbundle hverdict hverified hnot => ?_⟩
  exact DesktopTpmVerifier.verify_err hbundle hverdict hverified fun hboot =>
    hnot (hkept.listsBoot hne hboot)

/-- A policy for desktop TPM evidence of one build. -/
def desktopPolicy (requireIma : Bool) (bootAggregates : List String) : VerificationPolicy :=
  { oneAppPolicy ⟨some [1], none, none⟩ with
    evidenceProfile := .desktopTpmClient
    requireIma := requireIma
    bootAggregates := bootAggregates
    desktopTpmEkRoots := ["AAAAAAAAAAAAAAAAAAAAAAAAAAAAAAAAAAAAAAAAAAAAAAAAAAAAAAAAAAAAAAAA"]
    desktopTpmActivationPubkeys :=
      [" bbbbbbbbbbbbbbbbbbbbbbbbbbbbbbbbbbbbbbbbbbbbbbbbbbbbbbbbbbbbbbbb"] }

/-- The verdict on a machine with that build that reports no boot state. -/
def desktopVerdict (ima : Bool) : TpmVerdict := verifiedVerdict "linux-tpm-client" ima none [1]

/-- A library with no other verdict. -/
def desktopLibrary (ima : Bool) : TpmLibrary := .answering (fun _ => true) (desktopVerdict ima)

/-- A policy with one boot aggregate. -/
def oneBootPolicy : VerificationPolicy :=
  desktopPolicy false ["cccccccccccccccccccccccccccccccccccccccccccccccccccccccccccccccc"]

/-- A machine that reports no boot state is refused. -/
theorem validate_keeps_anchors_noBoot :
    oneBootPolicy.AnchorsKept ∧ ∃ e,
      (oneBootPolicy.desktopTpmVerifier.verifier (desktopLibrary true) 0).verify []
        ⟨List.replicate 32 0, rfl⟩ = .err e := by
  have h := validate_keeps_anchors (p := oneBootPolicy) (by decide +kernel)
  refine ⟨h.1, h.2 (List.cons_ne_nil _ _) (desktopLibrary true) 0 [] ⟨List.replicate 32 0, rfl⟩ ()
    (desktopVerdict true) rfl rfl rfl ?_⟩
  rintro ⟨_, _, ⟨⟩, _⟩

/-! ## The simulation -/

/-- The claims that describe a verdict on the build, as an operator hands them to the simulation:
with the status of the first entry for the build. -/
def TpmVerdict.claims (verdict : TpmVerdict) (p : VerificationPolicy) (id : List UInt8) :
    AppraisalClaims where
  evidenceProfile := .desktopTpmClient
  platform := verdict.platform
  measurement := some id
  appIdHash := none
  bindingOk := true
  imaVerified := verdict.imaVerified
  registryStatus := registryStatusFor p id

/-- **The simulation passes the claims about a verdict exactly when the gate accepts the
bundle.** -/
def SimulationPredicts (tiers : AssuranceTiers) (p : VerificationPolicy) (lib : TpmLibrary)
    (now : Int) (eat : List UInt8) (binding : Bytes 32) (verdict : TpmVerdict) (id : List UInt8) :
    Prop :=
  (∃ result, simulate tiers p (verdict.claims p id) now = .ok result ∧ result.pass = true) ↔
    (PolicyGated.verifier ⟨p.desktopTpmVerifier.verifier lib now, p⟩ tiers now).Accepts eat binding

theorem simulate_passes_iff (hvalid : p.validate = .ok ()) {tiers : AssuranceTiers}
    {claims : AppraisalClaims} {now : Int} :
    (∃ result, simulate tiers p claims now = .ok result ∧ result.pass = true) ↔
      (appraise tiers p claims now).pass = true := by
  simp only [simulate, hvalid, Outcome.ok_bind, Outcome.pure_eq_ok, Outcome.ok.injEq,
    exists_eq_left']

/-- The gate turns a verdict into the same claims. -/
theorem TpmVerdict.claims_eq (hprofile : p.evidenceProfile = .desktopTpmClient)
    (verdict : TpmVerdict) (id : List UInt8) :
    verdict.claims p id
      = PolicyGated.claims p ((Measurement.new verdict.platform id).withImaVerified
          verdict.imaVerified) := by
  unfold claims PolicyGated.claims
  rw [hprofile]
  rfl

/-- The gate accepts a bundle of which the verdict is known if the verdict passes. -/
theorem desktopGate_accepts_verdict_iff {tiers : AssuranceTiers} {lib : TpmLibrary} {now : Int}
    {eat : List UInt8} {binding : Bytes 32} {bundle : lib.Bundle} {verdict : TpmVerdict}
    (hbundle : lib.fromJson eat = .ok bundle)
    (hverdict : lib.verifyBundleWithOptions now bundle binding p.desktopTpmVerifier.tpmOptions
      = .ok verdict) :
    (PolicyGated.verifier ⟨p.desktopTpmVerifier.verifier lib now, p⟩ tiers now).Accepts eat
      binding ↔ p.Passes tiers now verdict := by
  rw [desktopGate_accepts_iff]
  constructor
  · rintro ⟨bundle', verdict', hbundle', hverdict', hpasses⟩
    obtain rfl := Except.ok.inj (hbundle.symm.trans hbundle')
    obtain rfl := Except.ok.inj (hverdict.symm.trans hverdict')
    exact hpasses
  · exact fun hpasses => ⟨bundle, verdict, hbundle, hverdict, hpasses⟩

/-- The simulation passes a verdict that the policy lets in, with or without a measured log. -/
theorem simulate_claims_iff (hvalid : p.validate = .ok ())
    (hprofile : p.evidenceProfile = .desktopTpmClient) {tiers : AssuranceTiers} {now : Int}
    {verdict : TpmVerdict} {id : List UInt8} :
    (∃ result, simulate tiers p (verdict.claims p id) now = .ok result ∧ result.pass = true) ↔
      p.isExpired now = false ∧ p.admits id = true ∧
        p.tierAllowed tiers verdict.platform verdict.imaVerified = true := by
  rw [simulate_passes_iff hvalid, TpmVerdict.claims_eq hprofile, PolicyGated.appraise_pass_iff]
  rfl

/--
**The simulation predicts the gate exactly when the measured log makes no difference.** For a valid
desktop TPM policy without boot aggregates and a verified verdict, the two disagree only where the
policy requires a measured log, the verdict has none, and the policy would let the build in
otherwise: its time, its allow list and its tiers.
-/
theorem simulate_predicts_iff (hvalid : p.validate = .ok ())
    (hprofile : p.evidenceProfile = .desktopTpmClient) (hboot : p.bootAggregates = [])
    (tiers : AssuranceTiers) {lib : TpmLibrary} {now : Int} {eat : List UInt8} {binding : Bytes 32}
    {bundle : lib.Bundle} {verdict : TpmVerdict} {id : List UInt8}
    (hbundle : lib.fromJson eat = .ok bundle)
    (hverdict : lib.verifyBundleWithOptions now bundle binding p.desktopTpmVerifier.tpmOptions
      = .ok verdict)
    (hverified : verdict.verdict = "verified")
    (hid : Hex.decode verdict.identityHash.toList = some id) :
    SimulationPredicts tiers p lib now eat binding verdict id ↔
      (p.requireIma = true → verdict.imaVerified = false →
        ¬ (p.isExpired now = false ∧ p.admits id = true ∧
          p.tierAllowed tiers verdict.platform false = true)) := by
  have hany : DesktopTpmVerifier.bootOk p.bootAggregatesBytes verdict.bootAggregate = true := by
    unfold VerificationPolicy.bootAggregatesBytes
    rw [hboot]
    rfl
  unfold SimulationPredicts
  rw [simulate_claims_iff hvalid hprofile, desktopGate_accepts_verdict_iff hbundle hverdict,
    VerificationPolicy.passes_iff hverified hid]
  constructor
  · rintro h hreq hnone ⟨hexp, hadmits, htier⟩
    have hima := (h.mp ⟨hexp, hadmits, hnone ▸ htier⟩).1 hreq
    exact Bool.false_ne_true (hnone.symm.trans hima)
  · intro h
    refine ⟨fun hpolicy => ⟨fun hreq => ?_, hany, hpolicy⟩, fun hpasses => hpasses.2.2⟩
    cases hima : verdict.imaVerified with
    | true => rfl
    | false => exact absurd (hima ▸ hpolicy) (h hreq hima)

/-- The tier of a desktop whose measured log was not verified, or was. -/
def desktopTiers : AssuranceTiers :=
  fun _ ima => ("device-attested", if ima then "tpm-ima" else "tpm-channel-bound")

/-- The simulation predicts the gate for a machine with a measured log. -/
theorem simulate_predicts_iff_ima :
    SimulationPredicts desktopTiers (desktopPolicy true []) (desktopLibrary true) 0 []
      ⟨List.replicate 32 0, rfl⟩ (desktopVerdict true) [1] :=
  (@simulate_predicts_iff (desktopPolicy true []) (by decide +kernel) rfl rfl desktopTiers
    (desktopLibrary true) 0 [] ⟨List.replicate 32 0, rfl⟩ () (desktopVerdict true) [1] rfl rfl rfl
    (by decide +kernel)).mpr fun _ h => nomatch h

/-- A machine without one passes the simulation of a policy that requires it, and the gate refuses
it. -/
theorem simulation_misses_ima :
    (desktopPolicy true []).validate = .ok () ∧
      (∃ result, simulate desktopTiers (desktopPolicy true [])
        ((desktopVerdict false).claims (desktopPolicy true []) [1]) 0 = .ok result ∧
          result.pass = true) ∧
      ¬ SimulationPredicts desktopTiers (desktopPolicy true []) (desktopLibrary false) 0 []
        ⟨List.replicate 32 0, rfl⟩ (desktopVerdict false) [1] := by
  have hpass : (appraise desktopTiers (desktopPolicy true [])
      ((desktopVerdict false).claims (desktopPolicy true []) [1]) 0).pass = true := by
    decide +kernel
  have hsim := (simulate_passes_iff (p := desktopPolicy true []) (by decide +kernel)).mpr hpass
  refine ⟨by decide +kernel, hsim, fun hpredicts => ?_⟩
  obtain ⟨m, hm⟩ := hpredicts.mp hsim
  obtain ⟨hinner, _⟩ := PolicyGated.verify_eq_ok.mp hm
  obtain ⟨_, verdict, _, hverdict, haccepts⟩ := DesktopTpmVerifier.verify_eq_ok.mp hinner
  -- the library has one verdict, which is without a measured log
  obtain rfl : desktopVerdict false = verdict := Except.ok.inj hverdict
  exact absurd (haccepts.ima rfl) Bool.false_ne_true

end EatPass
