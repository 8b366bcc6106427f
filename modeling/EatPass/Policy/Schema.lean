import EatPass.Core.Authorize
import EatPass.Infra.Hex

/-!
# The operator's policy

`policy/src/schema.rs`: the policy file, what `validate` accepts, and the values other crates read
from it. A file is modelled by what `serde_json` reads from it; a time is a number of nanoseconds.

`validate` and the three readers of the desktop TPM fields decode the same texts separately. The
readers drop what they cannot decode, `validate` refuses it.
-/

namespace EatPass

open Infra

/-- `PolicyError`, as far as `validate` returns it. -/
inductive PolicyError where
  | invalid (what : String)
deriving DecidableEq

def PolicyError.message : PolicyError → String
  | .invalid what => "policy invalid: " ++ what

/-- `EvidenceProfile`: which format of evidence the policy is for. -/
inductive EvidenceProfile where
  | uqEat
  | azureSnpBundle
  | azureAttestedTls
  | androidKeyAttestation
  | iosAppAttest
  | desktopTpmClient
  | macOsAppAttest
deriving DecidableEq

inductive RegistryMinimum where
  | recommended
  | deprecated
deriving DecidableEq

def RegistryMinimum.accepts : RegistryMinimum → String → Bool
  | .recommended, status => status == "recommended"
  | .deprecated, status => status == "recommended" || status == "deprecated"

inductive TrustTier where
  | softwareWitness
  | relayInherited
  | deviceAttested
  | siliconCvm
deriving DecidableEq

namespace TrustTier

/-- `from_label`. -/
def fromLabel (label : String) : Option TrustTier :=
  if label = "software-witness" then some .softwareWitness
  else if label = "relay-inherited" then some .relayInherited
  else if label = "device-attested" then some .deviceAttested
  else if label = "silicon-cvm" then some .siliconCvm
  else none

def rank : TrustTier → Nat
  | .softwareWitness => 0
  | .relayInherited => 1
  | .deviceAttested => 2
  | .siliconCvm => 3

def accepts (min actual : TrustTier) : Bool := decide (min.rank ≤ actual.rank)

end TrustTier

structure ClassSpec where
  name : String
  version : UInt32
deriving DecidableEq

/-- One reference value, either a build or an app. -/
structure AllowEntry where
  measurement : Option (List UInt8)
  appIdHash : Option (List UInt8)
  registryStatus : Option String
deriving DecidableEq

structure VerificationPolicy where
  version : UInt32
  id : String
  validUntil : Option Int
  evidenceProfile : EvidenceProfile
  «class» : ClassSpec
  registryMinimum : RegistryMinimum
  minTier : TrustTier
  allowedTierDetails : List String
  allow : List AllowEntry
  requireIma : Bool
  bootAggregates : List String
  desktopTpmEkRoots : List String
  desktopTpmActivationPubkeys : List String
  notes : Option String
deriving DecidableEq

/-! ## Validation -/

/-- A loop over a list and the positions in it, up to the first error. -/
def checkEach {α : Type} (check : Nat → α → Outcome PolicyError Unit) :
    Nat → List α → Outcome PolicyError Unit
  | _, [] => .ok ()
  | i, a :: rest => do
    check i a
    checkEach check (i + 1) rest

/-- `field[i]`, as the messages name an element. -/
def elementName (field : String) (i : Nat) : String := field ++ "[" ++ toString i ++ "]"

def checkTierDetail (i : Nat) (detail : String) : Outcome PolicyError Unit :=
  Outcome.require (trim detail.toList ≠ [])
    (.invalid (elementName "allowed_tier_details" i ++ " must be non-empty"))

/-- The value is present and not empty. -/
def isSet (value : Option (List UInt8)) : Bool := value.any fun bytes => !bytes.isEmpty

/-- The checks of one allow entry: the field its profile demands is set, and the other is not. -/
def checkAllowEntry (profile : EvidenceProfile) (i : Nat) (e : AllowEntry) :
    Outcome PolicyError Unit := do
  let hasM := isSet e.measurement
  let hasA := isSet e.appIdHash
  Outcome.require (hasM ≠ hasA)
    (.invalid (elementName "allow" i ++ ": set exactly one of measurement or app_id_hash"))
  match profile with
  | .androidKeyAttestation | .iosAppAttest | .macOsAppAttest =>
    Outcome.require (hasA = true)
      (.invalid (elementName "allow" i ++ ": app-attest profile requires app_id_hash only"))
  | .desktopTpmClient =>
    Outcome.require (hasM = true) (.invalid (elementName "allow" i
      ++ ": desktop-tpm profile requires measurement (build_id_hash) only"))
  | .uqEat | .azureSnpBundle | .azureAttestedTls =>
    Outcome.require (hasM = true)
      (.invalid (elementName "allow" i ++ ": CVM profile requires measurement only"))

/-- The text is 32 bytes of hexadecimal, whitespace around it allowed. -/
def checkHex32 (field what : String) (i : Nat) (text : String) : Outcome PolicyError Unit :=
  Outcome.require (((Hex.decode (trim text.toList)).map List.length).getD 0 = 32)
    (.invalid (elementName field i ++ " must be 32-byte hex" ++ what))

namespace VerificationPolicy

/-- One of the fields for desktop TPM evidence is used. -/
def hasDesktopTpmPolicy (p : VerificationPolicy) : Bool :=
  p.requireIma || !p.bootAggregates.isEmpty || !p.desktopTpmEkRoots.isEmpty
    || !p.desktopTpmActivationPubkeys.isEmpty

/-- `validate`. -/
def validate (p : VerificationPolicy) : Outcome PolicyError Unit := do
  Outcome.require (p.version = 1) (.invalid ("unsupported policy version " ++ toString p.version))
  Outcome.require (p.id ≠ "") (.invalid "id must be non-empty")
  Outcome.require (p.class.name ≠ "") (.invalid "class.name must be non-empty")
  Outcome.require (p.allow ≠ []) (.invalid "allow must not be empty")
  checkEach checkTierDetail 0 p.allowedTierDetails
  checkEach (checkAllowEntry p.evidenceProfile) 0 p.allow
  Outcome.require (p.hasDesktopTpmPolicy = true → p.evidenceProfile = .desktopTpmClient)
    (.invalid "desktop TPM trust-root fields are only valid for the desktop-tpm profile")
  Outcome.require (p.evidenceProfile = .desktopTpmClient → p.desktopTpmEkRoots ≠ [])
    (.invalid "desktop-tpm profile requires desktop_tpm_ek_roots")
  Outcome.require (p.evidenceProfile = .desktopTpmClient → p.desktopTpmActivationPubkeys ≠ [])
    (.invalid "desktop-tpm profile requires desktop_tpm_activation_pubkeys")
  checkEach (checkHex32 "boot_aggregates" " (sha256 over PCR 0-9)") 0 p.bootAggregates
  checkEach (checkHex32 "desktop_tpm_ek_roots" " (sha256 of DER root cert)") 0 p.desktopTpmEkRoots
  checkEach (checkHex32 "desktop_tpm_activation_pubkeys" " Ed25519 public key") 0
    p.desktopTpmActivationPubkeys

/-! ## Readers -/

/-- The texts that decode to 32 bytes. -/
def decodeAll32 (texts : List String) : List (Bytes 32) :=
  texts.filterMap fun text => Hex.decodeArray 32 (trim text.toList)

def bootAggregatesBytes (p : VerificationPolicy) : List (Bytes 32) := decodeAll32 p.bootAggregates

/-- `desktop_tpm_ek_roots_bytes`: trimmed texts in lower case, despite its name. -/
def desktopTpmEkRootsBytes (p : VerificationPolicy) : List String :=
  p.desktopTpmEkRoots.map fun text => String.ofList ((trim text.toList).map Char.toLower)

def desktopTpmActivationPubkeysBytes (p : VerificationPolicy) : List (Bytes 32) :=
  decodeAll32 p.desktopTpmActivationPubkeys

/-- `is_expired`. -/
def isExpired (p : VerificationPolicy) (now : Int) : Bool :=
  p.validUntil.any fun u => decide (u < now)

/-- `measurement_class`: the anonymity set of the policy. An entry counts with its measurement if
there is one, be it empty. -/
def measurementClass (p : VerificationPolicy) : MeasurementClass :=
  .new p.class.name p.class.version (p.allow.filterMap fun e => e.measurement.or e.appIdHash)

/-- A policy is valid at some time: whatever its last moment is, it has not passed then. -/
theorem exists_not_expired (p : VerificationPolicy) : ∃ now, p.isExpired now = false := by
  unfold isExpired
  cases p.validUntil with
  | none => exact ⟨0, rfl⟩
  | some u => exact ⟨u, by simp⟩

end VerificationPolicy

/-! ## What `validate` accepts -/

/-- The profile is for apps, so its entries name apps. -/
def EvidenceProfile.namesApps : EvidenceProfile → Bool
  | .androidKeyAttestation | .iosAppAttest | .macOsAppAttest => true
  | .uqEat | .azureSnpBundle | .azureAttestedTls | .desktopTpmClient => false

namespace AllowEntry

/-- The field of the entry that the profile demands. -/
def demanded (profile : EvidenceProfile) (e : AllowEntry) : Option (List UInt8) :=
  if profile.namesApps then e.appIdHash else e.measurement

/-- The other field of the entry. -/
def other (profile : EvidenceProfile) (e : AllowEntry) : Option (List UInt8) :=
  if profile.namesApps then e.measurement else e.appIdHash

/-- The demanded field is set and the other one is not. -/
structure WellFormed (profile : EvidenceProfile) (e : AllowEntry) : Prop where
  demanded : isSet (e.demanded profile) = true
  other : isSet (e.other profile) = false

end AllowEntry

theorem checkTierDetail_eq_ok (i : Nat) (detail : String) :
    checkTierDetail i detail = .ok () ↔ trim detail.toList ≠ [] :=
  Outcome.require_eq_ok

theorem checkAllowEntry_eq_ok (profile : EvidenceProfile) (i : Nat) (e : AllowEntry) :
    checkAllowEntry profile i e = .ok () ↔ e.WellFormed profile := by
  have hwf : e.WellFormed profile ↔
      isSet (e.demanded profile) = true ∧ isSet (e.other profile) = false :=
    ⟨fun h => ⟨h.demanded, h.other⟩, fun h => ⟨h.1, h.2⟩⟩
  rw [hwf]
  simp only [checkAllowEntry, Outcome.bind_eq_ok, Outcome.require_eq_ok, exists_const]
  cases profile <;>
    simp only [AllowEntry.demanded, AllowEntry.other, EvidenceProfile.namesApps,
      Outcome.require_eq_ok, if_true, Bool.false_eq_true, if_false] <;>
    cases isSet e.measurement <;> cases isSet e.appIdHash <;> simp

/-- A loop of checks that do not depend on the position succeeds if every element passes. -/
theorem checkEach_eq_ok {α : Type} {check : Nat → α → Outcome PolicyError Unit} {P : α → Prop}
    (hcheck : ∀ i a, check i a = .ok () ↔ P a) :
    ∀ (l : List α) (i : Nat), checkEach check i l = .ok () ↔ ∀ a ∈ l, P a
  | [], i => by simp [checkEach]
  | a :: rest, i => by
    simp only [checkEach, Outcome.bind_eq_ok, exists_const, hcheck, List.forall_mem_cons,
      checkEach_eq_ok hcheck rest]

/-- The text is 32 bytes of hexadecimal, whitespace around it allowed. -/
def IsHex32 (text : String) : Prop := ∃ b : Bytes 32, Hex.decode (trim text.toList) = some b.val

theorem checkHex32_eq_ok (field what : String) (i : Nat) (text : String) :
    checkHex32 field what i text = .ok () ↔ IsHex32 text := by
  unfold checkHex32 IsHex32
  rw [Outcome.require_eq_ok]
  cases Hex.decode (trim text.toList) with
  | none => simp
  | some bytes => exact ⟨fun h => ⟨⟨bytes, h⟩, rfl⟩, fun ⟨b, hb⟩ => Option.some.inj hb ▸ b.property⟩

/-- What a policy satisfies that `validate` accepts. -/
structure VerificationPolicy.Validated (p : VerificationPolicy) : Prop where
  version : p.version = 1
  id : p.id ≠ ""
  className : p.class.name ≠ ""
  allow : p.allow ≠ []
  tierDetails : ∀ detail ∈ p.allowedTierDetails, trim detail.toList ≠ []
  entries : ∀ e ∈ p.allow, e.WellFormed p.evidenceProfile
  desktopOnly : p.hasDesktopTpmPolicy = true → p.evidenceProfile = .desktopTpmClient
  hasEkRoots : p.evidenceProfile = .desktopTpmClient → p.desktopTpmEkRoots ≠ []
  hasActivationPubkeys :
    p.evidenceProfile = .desktopTpmClient → p.desktopTpmActivationPubkeys ≠ []
  bootAggregates : ∀ text ∈ p.bootAggregates, IsHex32 text
  ekRoots : ∀ text ∈ p.desktopTpmEkRoots, IsHex32 text
  activationPubkeys : ∀ text ∈ p.desktopTpmActivationPubkeys, IsHex32 text

/-- **What `validate` accepts.** -/
theorem VerificationPolicy.validate_eq_ok {p : VerificationPolicy} :
    p.validate = .ok () ↔ p.Validated := by
  simp only [validate, Outcome.bind_eq_ok, Outcome.require_eq_ok, exists_const,
    checkEach_eq_ok checkTierDetail_eq_ok, checkEach_eq_ok (checkAllowEntry_eq_ok _),
    checkEach_eq_ok (checkHex32_eq_ok _ _)]
  constructor
  · rintro ⟨h1, h2, h3, h4, h5, h6, h7, h8, h9, h10, h11, h12⟩
    exact ⟨h1, h2, h3, h4, h5, h6, h7, h8, h9, h10, h11, h12⟩
  · rintro ⟨h1, h2, h3, h4, h5, h6, h7, h8, h9, h10, h11, h12⟩
    exact ⟨h1, h2, h3, h4, h5, h6, h7, h8, h9, h10, h11, h12⟩

end EatPass
