import EatPass.Policy.Appraise

/-!
# The verifiers of evidence

`gate/src/lib.rs`. Each gate decodes its own format of evidence, has `unified_quote` verify it,
ties it to the channel binding and extracts the identity of the build or the app. `unified_quote`
is outside the repository: what the gates call of it is a parameter, and what it verifies may
depend on the time. Error texts are those of the source without the part that a decoder of
hexadecimal text appends to them.

* `azureMeasurement_ok`, `mobileVerifier_ok`, `macOsAppAttestVerifier_ok` — what an accepted bundle
  has passed
* `uqVerifier_eq_ok`, `DesktopTpmVerifier.verify_eq_ok` — the same for tokens and for desktop TPM
  evidence, in both directions
-/

namespace EatPass

open Infra

/-! ## What the gates call -/

/-- `unified_quote::quote::Platform`. -/
inductive QuotePlatform where
  | nitro
  | sevSnp
  | tdx
deriving DecidableEq

/-- `platform_label`. -/
def QuotePlatform.label : QuotePlatform → String
  | .nitro => "nitro"
  | .sevSnp => "sev-snp"
  | .tdx => "tdx"

/-- `EatToken`, and `verify_platform_quote` at a time. -/
structure EatLibrary where
  Token : Type
  fromCbor : List UInt8 → Except String Token
  eatNonce : Token → Bytes 32
  platform : Token → UInt8
  platformEnum : Token → Option QuotePlatform
  platformQuote : Token → List UInt8
  bindingBytes : Token → Bytes 32
  valueX : Token → List UInt8
  verifyPlatformQuote : Int → QuotePlatform → List UInt8 → Bytes 32 → Except String Unit

structure AzureVerdict where
  verdict : String
  valueX : Option String
  measurement : String

/-- `unified_quote::tee::azure`. -/
structure AzureLibrary where
  Bundle : Type
  fromJson : List UInt8 → Except String Bundle
  hasTlsSpki : Bundle → Bool
  verifyBundle : Int → Bundle → Except String AzureVerdict
  verifyAttestedCert : Int → List UInt8 → Except String AzureVerdict

structure MobileVerdict where
  verdict : String
  appIdHash : String

/-- `unified_quote::tee::mobile::android`, or `ios`, with the name of the platform. -/
structure MobileLibrary where
  Bundle : Type
  platformName : String
  fromJson : List UInt8 → Except String Bundle
  verifyBundle : Int → Bundle → Bytes 32 → Except String MobileVerdict

structure MacOsVerdict where
  verdict : String
  identityHash : String
  platform : String

/-- `unified_quote::tee::desktop::app_attest`. -/
structure MacOsLibrary where
  Bundle : Type
  fromJson : List UInt8 → Except String Bundle
  verifyBundle : Int → Bundle → Bytes 32 → Except String MacOsVerdict

/-- `TpmVerifierOptions`; its `now` is never set, so the library reads the clock. -/
structure TpmVerifierOptions where
  ekRootSha256 : List String
  activationPubkeys : List (Bytes 32)

structure TpmVerdict where
  verdict : String
  platform : String
  identityHash : String
  imaVerified : Bool
  bootAggregate : Option String

/-- `unified_quote::tee::desktop::tpm`. -/
structure TpmLibrary where
  Bundle : Type
  fromJson : List UInt8 → Except String Bundle
  verifyBundleWithOptions : Int → Bundle → Bytes 32 → TpmVerifierOptions → Except String TpmVerdict

/-- Everything the gates use of `unified_quote`. -/
structure UnifiedQuote where
  eat : EatLibrary
  azure : AzureLibrary
  android : MobileLibrary
  ios : MobileLibrary
  tpm : TpmLibrary
  macOs : MacOsLibrary
  assuranceTier : AssuranceTiers

/-! ## Errors -/

/-- A result of the library, with what its error is reported as. -/
def ofLibrary {α : Type} (what : String) : Except String α → Outcome GateError α
  | .ok a => .ok a
  | .error e => .err (.attestationInvalid (what ++ ": " ++ e))

theorem ofLibrary_eq_ok {α : Type} {what : String} {x : Except String α} {a : α} :
    ofLibrary what x = .ok a ↔ x = .ok a := by
  cases x <;> simp [ofLibrary]

/-- A verdict other than `verified` is an error. -/
def requireVerified (what verdict : String) : Outcome GateError Unit :=
  Outcome.require (verdict = "verified") (.attestationInvalid (what ++ ": " ++ verdict))

/-- `hex::decode` of a field of a verdict. -/
def hexField (what text : String) : Outcome GateError (List UInt8) :=
  Outcome.ofOption (.attestationInvalid what) (Hex.decode text.toList)

/-! ## The gates -/

/-- `UqVerifier`: the nonce of the token is the binding. -/
def uqVerifier (lib : EatLibrary) (now : Int) : AttestationVerifier where
  verify eat expectedBinding := do
    let token ← ofLibrary "eat decode" (lib.fromCbor eat)
    Outcome.require (lib.eatNonce token = expectedBinding) .bindingMismatch
    let platform ← Outcome.ofOption
      (.attestationInvalid ("unknown platform " ++ toString (lib.platform token)))
      (lib.platformEnum token)
    ofLibrary "platform quote" (lib.verifyPlatformQuote now platform (lib.platformQuote token)
      (lib.bindingBytes token))
    return Measurement.new platform.label (lib.valueX token)

/-- What the two Azure gates do with a verdict: its `value_x` is the binding. -/
def azureMeasurement (notBound : String) (verdict : AzureVerdict) (expectedBinding : Bytes 32) :
    Outcome GateError Measurement := do
  requireVerified "azure verdict" verdict.verdict
  let boundHex ← Outcome.ofOption (.attestationInvalid notBound) verdict.valueX
  let bound ← hexField "value_x hex" boundHex
  Outcome.require (bound = expectedBinding.val) .bindingMismatch
  let measurement ← hexField "measurement hex" verdict.measurement
  return Measurement.new "azure-sev-snp-vtpm" measurement

/-- `AzureUqVerifier`. A bundle for attested TLS is not for this gate. -/
def azureUqVerifier (lib : AzureLibrary) (now : Int) : AttestationVerifier where
  verify eat expectedBinding := do
    let bundle ← ofLibrary "azure bundle parse" (lib.fromJson eat)
    Outcome.require (lib.hasTlsSpki bundle = false) (.attestationInvalid
      "azure bundle carries tls_spki (attested-TLS shape); use the cert verifier")
    let verdict ← ofLibrary "azure verify" (lib.verifyBundle now bundle)
    azureMeasurement "azure bundle not value_x-bound (no AK quote)" verdict expectedBinding

/-- `AzureTlsVerifier`. The evidence is the certificate itself. -/
def azureTlsVerifier (lib : AzureLibrary) (now : Int) : AttestationVerifier where
  verify eat expectedBinding := do
    let verdict ← ofLibrary "azure attested-tls" (lib.verifyAttestedCert now eat)
    azureMeasurement "attested-tls bundle not value_x-bound" verdict expectedBinding

/-- The gates for phones: the library is given the binding. -/
def mobileVerifier (what : String) (lib : MobileLibrary) (now : Int) : AttestationVerifier where
  verify eat expectedBinding := do
    let bundle ← ofLibrary (what ++ " bundle") (lib.fromJson eat)
    let verdict ← ofLibrary (what ++ " verify") (lib.verifyBundle now bundle expectedBinding)
    requireVerified (what ++ " verdict") verdict.verdict
    let appId ← hexField "app_id_hash" verdict.appIdHash
    return Measurement.new lib.platformName appId

/-- `AndroidKeyAttestationVerifier`. -/
def androidKeyAttestationVerifier : MobileLibrary → Int → AttestationVerifier :=
  mobileVerifier "android"

/-- `IosAppAttestVerifier`. -/
def iosAppAttestVerifier : MobileLibrary → Int → AttestationVerifier := mobileVerifier "ios"

/-- `MacOsAppAttestVerifier`. The platform is the one of the verdict. -/
def macOsAppAttestVerifier (lib : MacOsLibrary) (now : Int) : AttestationVerifier where
  verify eat expectedBinding := do
    let bundle ← ofLibrary "macos bundle" (lib.fromJson eat)
    let verdict ← ofLibrary "macos app attest" (lib.verifyBundle now bundle expectedBinding)
    requireVerified "macos verdict" verdict.verdict
    let valueX ← hexField "app_id_hash" verdict.identityHash
    return Measurement.new verdict.platform valueX

/-- `DesktopTpmVerifier`. -/
structure DesktopTpmVerifier where
  requireIma : Bool
  bootAggregates : List (Bytes 32)
  tpmOptions : TpmVerifierOptions

namespace DesktopTpmVerifier

/-- `DesktopTpmVerifier::with_policy`. -/
def withPolicy (requireIma : Bool) (bootAggregates : List (Bytes 32)) (ekRootSha256 : List String)
    (activationPubkeys : List (Bytes 32)) : DesktopTpmVerifier where
  requireIma := requireIma
  bootAggregates := bootAggregates
  tpmOptions := { ekRootSha256, activationPubkeys }

/-- The quoted boot state is one of the list; an empty list accepts any. -/
def bootOk (boots : List (Bytes 32)) (aggregate : Option String) : Bool :=
  boots.isEmpty ||
    ((aggregate.bind fun h => Hex.decode h.toList).map fun b =>
      boots.any fun a => a.val == b).getD false

/-- `verify`, at a time. -/
def verifier (v : DesktopTpmVerifier) (lib : TpmLibrary) (now : Int) : AttestationVerifier where
  verify eat expectedBinding := do
    let bundle ← ofLibrary "desktop tpm bundle" (lib.fromJson eat)
    let verdict ← ofLibrary "desktop tpm"
      (lib.verifyBundleWithOptions now bundle expectedBinding v.tpmOptions)
    requireVerified "desktop tpm verdict" verdict.verdict
    Outcome.require (v.requireIma = true → verdict.imaVerified = true) (.attestationInvalid
      "policy requires IMA-measured attestation but bundle is channel-bound only")
    Outcome.require (bootOk v.bootAggregates verdict.bootAggregate = true) .measurementNotAllowed
    let valueX ← hexField "identity_hash" verdict.identityHash
    return (Measurement.new verdict.platform valueX).withImaVerified verdict.imaVerified

end DesktopTpmVerifier

/-! ## What was accepted -/

section Accepted

variable {now : Int} {eat : List UInt8} {binding : Bytes 32} {m : Measurement}

/-- **The gate for tokens accepts a token whose nonce is the binding and whose quote verifies.** -/
theorem uqVerifier_eq_ok {lib : EatLibrary} :
    (uqVerifier lib now).verify eat binding = .ok m ↔
      ∃ token platform, lib.fromCbor eat = .ok token ∧ lib.eatNonce token = binding ∧
        lib.platformEnum token = some platform ∧
        lib.verifyPlatformQuote now platform (lib.platformQuote token) (lib.bindingBytes token)
          = .ok () ∧
        m = .new platform.label (lib.valueX token) := by
  simp only [uqVerifier, Outcome.bind_eq_ok, ofLibrary_eq_ok, Outcome.require_eq_ok,
    Outcome.ofOption_eq_ok, Outcome.pure_eq_ok, Outcome.ok.injEq]
  constructor
  · rintro ⟨token, htoken, _, hnonce, platform, hplatform, _, hquote, rfl⟩
    exact ⟨token, platform, htoken, hnonce, hplatform, hquote, rfl⟩
  · rintro ⟨token, platform, htoken, hnonce, hplatform, hquote, rfl⟩
    exact ⟨token, htoken, (), hnonce, platform, hplatform, (), hquote, rfl⟩

/-- The `value_x` of the verdict is the binding. -/
theorem azureMeasurement_ok {notBound : String} {verdict : AzureVerdict}
    (h : azureMeasurement notBound verdict binding = .ok m) :
    ∃ bound, verdict.valueX = some bound ∧ Hex.decode bound.toList = some binding.val := by
  simp only [azureMeasurement, hexField, Outcome.bind_eq_ok, Outcome.ofOption_eq_ok,
    Outcome.require_eq_ok] at h
  obtain ⟨_, _, boundHex, hbound, bound, hdecode, _, rfl, _⟩ := h
  exact ⟨boundHex, hbound, hdecode⟩

theorem azureUqVerifier_ok {lib : AzureLibrary}
    (h : (azureUqVerifier lib now).verify eat binding = .ok m) :
    ∃ bundle verdict bound, lib.fromJson eat = .ok bundle ∧
      lib.verifyBundle now bundle = .ok verdict ∧ verdict.valueX = some bound ∧
      Hex.decode bound.toList = some binding.val := by
  simp only [azureUqVerifier, Outcome.bind_eq_ok, ofLibrary_eq_ok] at h
  obtain ⟨bundle, hbundle, _, _, verdict, hverdict, hm⟩ := h
  obtain ⟨bound, hbound, hdecode⟩ := azureMeasurement_ok hm
  exact ⟨bundle, verdict, bound, hbundle, hverdict, hbound, hdecode⟩

theorem azureTlsVerifier_ok {lib : AzureLibrary}
    (h : (azureTlsVerifier lib now).verify eat binding = .ok m) :
    ∃ verdict bound, lib.verifyAttestedCert now eat = .ok verdict ∧
      verdict.valueX = some bound ∧ Hex.decode bound.toList = some binding.val := by
  simp only [azureTlsVerifier, Outcome.bind_eq_ok, ofLibrary_eq_ok] at h
  obtain ⟨verdict, hverdict, hm⟩ := h
  obtain ⟨bound, hbound, hdecode⟩ := azureMeasurement_ok hm
  exact ⟨verdict, bound, hverdict, hbound, hdecode⟩

/-- The library has verified the bundle for the binding. -/
theorem mobileVerifier_ok {what : String} {lib : MobileLibrary}
    (h : (mobileVerifier what lib now).verify eat binding = .ok m) :
    ∃ bundle verdict, lib.fromJson eat = .ok bundle ∧
      lib.verifyBundle now bundle binding = .ok verdict ∧ verdict.verdict = "verified" := by
  simp only [mobileVerifier, requireVerified, Outcome.bind_eq_ok, ofLibrary_eq_ok,
    Outcome.require_eq_ok] at h
  obtain ⟨bundle, hbundle, verdict, hverdict, _, hverified, _⟩ := h
  exact ⟨bundle, verdict, hbundle, hverdict, hverified⟩

theorem macOsAppAttestVerifier_ok {lib : MacOsLibrary}
    (h : (macOsAppAttestVerifier lib now).verify eat binding = .ok m) :
    ∃ bundle verdict, lib.fromJson eat = .ok bundle ∧
      lib.verifyBundle now bundle binding = .ok verdict ∧ verdict.verdict = "verified" := by
  simp only [macOsAppAttestVerifier, requireVerified, Outcome.bind_eq_ok, ofLibrary_eq_ok,
    Outcome.require_eq_ok] at h
  obtain ⟨bundle, hbundle, verdict, hverdict, _, hverified, _⟩ := h
  exact ⟨bundle, verdict, hbundle, hverdict, hverified⟩

/-- What a verdict on a desktop TPM bundle has to satisfy, and the measurement it gives. -/
structure DesktopTpmVerifier.Accepts (v : DesktopTpmVerifier) (verdict : TpmVerdict)
    (m : Measurement) : Prop where
  verified : verdict.verdict = "verified"
  ima : v.requireIma = true → verdict.imaVerified = true
  boot : bootOk v.bootAggregates verdict.bootAggregate = true
  identity : Hex.decode verdict.identityHash.toList = some m.valueX
  platform : m.platform = verdict.platform
  imaVerified : m.imaVerified = verdict.imaVerified

/-- **The desktop TPM gate accepts what the library verifies under its options, and what then
satisfies the policy's posture.** -/
theorem DesktopTpmVerifier.verify_eq_ok {v : DesktopTpmVerifier} {lib : TpmLibrary} :
    (v.verifier lib now).verify eat binding = .ok m ↔
      ∃ bundle verdict, lib.fromJson eat = .ok bundle ∧
        lib.verifyBundleWithOptions now bundle binding v.tpmOptions = .ok verdict ∧
        v.Accepts verdict m := by
  simp only [verifier, requireVerified, hexField, Outcome.bind_eq_ok, ofLibrary_eq_ok,
    Outcome.require_eq_ok, Outcome.ofOption_eq_ok, Outcome.pure_eq_ok, Outcome.ok.injEq]
  constructor
  · rintro ⟨bundle, hbundle, verdict, hverdict, _, hverified, _, hima, _, hboot, valueX, hvalue,
      rfl⟩
    exact ⟨bundle, verdict, hbundle, hverdict, hverified, hima, hboot, hvalue, rfl, rfl⟩
  · rintro ⟨bundle, verdict, hbundle, hverdict, h⟩
    refine ⟨bundle, hbundle, verdict, hverdict, (), h.verified, (), h.ima, (), h.boot, m.valueX,
      h.identity, ?_⟩
    obtain ⟨platform, valueX, ima⟩ := m
    simp only [Measurement.new, Measurement.withImaVerified, Measurement.mk.injEq]
    exact ⟨h.platform.symm, trivial, h.imaVerified.symm⟩

end Accepted

end EatPass
