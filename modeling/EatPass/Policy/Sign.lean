import Mathlib.Data.List.Forall2
import EatPass.Core.Crypto
import EatPass.Infra.Base64
import EatPass.Policy.Schema

/-!
# Policy files and their sidecars

`policy/src/sign.rs`, and `load_for_attester` of `policy/src/lib.rs`. The operator signs a policy
file and the signature goes into a sidecar file next to it. An attester that trusts some keys reads
both files, one after the other.

`serde_json`, `chrono` and the printing of paths are a parameter (`PolicyFormat`). Where a message
ends in the text of another library's error, the model leaves that text out.

* `trustedPubsFromEnv_eq_ok` — which keys the variable names
* `verifySidecar_eq_ok` — what a sidecar is checked for
* `sidecarPath_injective` — two policies with readable names do not share a sidecar
-/

namespace EatPass

open Infra

/-! ## Paths -/

/-- A `Path`: what stands before its last component, and that component if it is a name. A path
that ends in `..` has none and is all `parent`. -/
structure FilePath where
  parent : List UInt8
  fileName : Option (List UInt8)
deriving DecidableEq

/-- `sidecar_path`. A name that is not UTF-8 counts as `policy.json`. -/
def sidecarPath (policyPath : FilePath) : FilePath :=
  let name := (policyPath.fileName.bind fromUtf8).getD "policy.json"
  { policyPath with fileName := some (utf8 (name ++ ".sig")) }

/-- The path ends in a name that is UTF-8. -/
def FilePath.Readable (path : FilePath) : Prop := ∃ name, path.fileName = some (utf8 name)

theorem sidecarPath_of_readable {path : FilePath} {name : String}
    (h : path.fileName = some (utf8 name)) :
    (sidecarPath path).fileName = some (utf8 (name ++ ".sig")) := by
  simp [sidecarPath, h]

/-- **Readable names do not share a sidecar.** -/
theorem sidecarPath_injective {p q : FilePath} (hp : p.Readable) (hq : q.Readable)
    (h : sidecarPath p = sidecarPath q) : p = q := by
  obtain ⟨pName, hp⟩ := hp
  obtain ⟨qName, hq⟩ := hq
  have hparent : (sidecarPath p).parent = (sidecarPath q).parent := congrArg _ h
  have hname := congrArg FilePath.fileName h
  rw [sidecarPath_of_readable hp, sidecarPath_of_readable hq, Option.some.injEq] at hname
  have hnames : pName = qName := by
    have hlist := congrArg String.toList (utf8_injective hname)
    rw [String.toList_append, String.toList_append] at hlist
    exact String.toList_inj.mp (List.append_cancel_right hlist)
  obtain ⟨parent, fileName⟩ := p
  obtain ⟨parent', fileName'⟩ := q
  cases hp
  cases hq
  rw [show parent = parent' from hparent, hnames]

/-- A sidecar is never the policy itself. -/
theorem sidecarPath_ne (path : FilePath) : sidecarPath path ≠ path := by
  intro h
  have hname : some (utf8 ((path.fileName.bind fromUtf8).getD "policy.json" ++ ".sig"))
      = path.fileName := congrArg FilePath.fileName h
  rw [← hname] at hname
  simp only [Option.bind_some, fromUtf8_utf8, Option.getD_some, Option.some.injEq] at hname
  have hlen := congrArg String.length (utf8_injective hname)
  rw [String.length_append] at hlen
  have hsig : (".sig" : String).length = 4 := rfl
  omega

/-! ## Errors -/

/-- `PolicyError`, with the causes that only reading a file has. -/
inductive PolicyFileError where
  | io
  | json
  | invalid (e : PolicyError)
deriving DecidableEq

def PolicyFileError.message : PolicyFileError → String
  | .io => "io"
  | .json => "json"
  | .invalid e => e.message

/-- `PolicyError::Invalid`, from where the file is read. -/
def invalidFile (what : String) : PolicyFileError := .invalid (.invalid what)

/-- What the libraries add. -/
structure PolicyFormat where
  /-- `serde_json::from_slice`. -/
  fromSlice : List UInt8 → Option VerificationPolicy
  /-- `Path::display`. -/
  displayPath : FilePath → String
  /-- The debug form of `valid_until`. -/
  debugUntil : Option Int → String

/-- The debug form of a profile. -/
def EvidenceProfile.debug : EvidenceProfile → String
  | .uqEat => "UqEat"
  | .azureSnpBundle => "AzureSnpBundle"
  | .azureAttestedTls => "AzureAttestedTls"
  | .androidKeyAttestation => "AndroidKeyAttestation"
  | .iosAppAttest => "IosAppAttest"
  | .desktopTpmClient => "DesktopTpmClient"
  | .macOsAppAttest => "MacOsAppAttest"

/-! ## Keys from the environment -/

/-- `verifying_key_from_hex`. -/
def verifyingKeyFromHex (f : Faest) (text : List Char) : Outcome String f.VerificationKey := do
  let bytes ← Outcome.ofOption "faest: pub hex" (Hex.decode (trim text))
  let key ← Outcome.ofOption "faest: pub key must be 32 bytes (64 hex chars)" (toBytes? 32 bytes)
  Outcome.ofOption "faest: verifying key" (f.verifyingKeyFromBytes key)

/-- The loop of `trusted_pubs_from_env` from position `i` on. -/
def readTrusted (f : Faest) :
    Nat → List (List Char) → Outcome PolicyFileError (List f.VerificationKey)
  | _, [] => .ok []
  | i, part :: rest =>
    if trim part = [] then readTrusted f (i + 1) rest
    else do
      let key ← (verifyingKeyFromHex f (trim part)).mapErr fun e =>
        invalidFile (elementName "EATPASS_POLICY_TRUSTED_PUB" i ++ ": " ++ e)
      let keys ← readTrusted f (i + 1) rest
      return key :: keys

/-- `trusted_pubs_from_env`; the argument is the value of `EATPASS_POLICY_TRUSTED_PUB`, if it is
set and readable. -/
def trustedPubsFromEnv (f : Faest) (env : Option String) :
    Outcome PolicyFileError (List f.VerificationKey) :=
  match env with
  | none => .ok []
  | some raw => readTrusted f 0 (raw.toList.splitOn ',')

/-- `signing_key_from_env`; the argument is the value of `EATPASS_POLICY_SIGNING_SEED`, if it is
set and readable. -/
def signingKeyFromEnv (f : Faest) (env : Option String) :
    Outcome PolicyFileError f.SigningKey := do
  let text ← Outcome.ofOption (invalidFile
    "EATPASS_POLICY_SIGNING_SEED required (64 hex chars) to sign policy sidecars") env
  let bytes ← Outcome.ofOption (invalidFile "EATPASS_POLICY_SIGNING_SEED bad hex")
    (Hex.decode (trim text.toList))
  let seed ← Outcome.ofOption (invalidFile "EATPASS_POLICY_SIGNING_SEED must be 32 bytes")
    (toBytes? 32 bytes)
  return f.signingKeyFromSeed seed

/-- The parts of the variable that are not blank. -/
def namedKeys (env : Option String) : List (List Char) :=
  ((env.map fun raw => raw.toList.splitOn ',').getD []).filterMap fun part =>
    if trim part = [] then none else some (trim part)

theorem readTrusted_eq_ok {f : Faest} : ∀ {parts : List (List Char)} {i : Nat}
    {keys : List f.VerificationKey}, readTrusted f i parts = .ok keys ↔
      List.Forall₂ (fun text key => verifyingKeyFromHex f text = .ok key)
        (parts.filterMap fun part => if trim part = [] then none else some (trim part)) keys
  | [], i, keys => by
    simp [readTrusted, eq_comm]
  | part :: rest, i, keys => by
    rw [readTrusted, List.filterMap_cons]
    by_cases hblank : trim part = []
    · rw [if_pos hblank, if_pos hblank]
      exact readTrusted_eq_ok
    · rw [if_neg hblank, if_neg hblank]
      simp only [Outcome.bind_eq_ok, Outcome.mapErr_eq_ok, Outcome.pure_eq_ok, Outcome.ok.injEq,
        List.forall₂_cons_left_iff]
      constructor
      · rintro ⟨key, hkey, keys', hrest, rfl⟩
        exact ⟨key, keys', hkey, readTrusted_eq_ok.mp hrest, rfl⟩
      · rintro ⟨key, keys', hkey, hrest, rfl⟩
        exact ⟨key, hkey, keys', readTrusted_eq_ok.mpr hrest, rfl⟩

/-- **Which keys the variable names**: one for each part that is not blank, in their order. -/
theorem trustedPubsFromEnv_eq_ok {f : Faest} {env : Option String}
    {keys : List f.VerificationKey} :
    trustedPubsFromEnv f env = .ok keys ↔
      List.Forall₂ (fun text key => verifyingKeyFromHex f text = .ok key) (namedKeys env) keys := by
  cases env with
  | none => simp [trustedPubsFromEnv, namedKeys, eq_comm]
  | some raw => exact readTrusted_eq_ok

theorem verifyingKeyFromHex_encode (f : Faest) (pub : Bytes 32) :
    verifyingKeyFromHex f (Hex.encode pub.val)
      = Outcome.ofOption "faest: verifying key" (f.verifyingKeyFromBytes pub) := by
  simp only [verifyingKeyFromHex, Hex.trim_encode, Hex.decode_encode, toBytes?_val,
    Outcome.ofOption_some, Outcome.ok_bind]

/-- **Keys in hexadecimal, with commas between them, are read back.** -/
theorem trustedPubsFromEnv_encode {f : Faest} {pubs : List (Bytes 32)}
    {keys : List f.VerificationKey} (hne : pubs ≠ [])
    (h : List.Forall₂ (fun pub key => f.verifyingKeyFromBytes pub = some key) pubs keys) :
    trustedPubsFromEnv f (some (String.ofList
      ([','].intercalate (pubs.map fun pub => Hex.encode pub.val)))) = .ok keys := by
  have hcomma : ∀ l ∈ pubs.map fun pub => Hex.encode pub.val, ',' ∉ l := by
    intro l hl hmem
    obtain ⟨pub, -, rfl⟩ := List.mem_map.mp hl
    exact absurd (Hex.mem_digits_of_mem_encode hmem) (by decide)
  rw [trustedPubsFromEnv, String.toList_ofList,
    List.splitOn_intercalate ',' hcomma fun hnil => hne (List.map_eq_nil_iff.mp hnil),
    readTrusted_eq_ok]
  clear hne hcomma
  induction h with
  | nil => exact .nil
  | @cons pub key pubs keys hkey _ ih =>
    have hnonempty : Hex.encode pub.val ≠ [] := by
      intro hnil
      have hlen := congrArg List.length hnil
      rw [Hex.length_encode, pub.property] at hlen
      exact absurd hlen (by decide)
    rw [List.map_cons, List.filterMap_cons, Hex.trim_encode, if_neg hnonempty]
    refine .cons ?_ ih
    rw [verifyingKeyFromHex_encode, hkey, Outcome.ofOption_some]

theorem signingKeyFromEnv_encode (f : Faest) (seed : Bytes 32) :
    signingKeyFromEnv f (some (String.ofList (Hex.encode seed.val)))
      = .ok (f.signingKeyFromSeed seed) := by
  simp only [signingKeyFromEnv, Outcome.ofOption_some, Outcome.ok_bind, String.toList_ofList,
    Hex.trim_encode, Hex.decode_encode, toBytes?_val, Outcome.pure_eq_ok]

/-! ## Reading a policy -/

variable (fmt : PolicyFormat)

/-- The files by their paths; `none` cannot be read. -/
abbrev Files := FilePath → Option (List UInt8)

/-- `from_json_bytes`. -/
def VerificationPolicy.fromJsonBytes (bytes : List UInt8) :
    Outcome PolicyFileError VerificationPolicy := do
  let policy ← Outcome.ofOption .json (fmt.fromSlice bytes)
  policy.validate.mapErr .invalid
  return policy

/-- The first half of `load_verified`: the file is read and parsed. -/
def readPolicy (files : Files) (policyPath : FilePath) :
    Outcome PolicyFileError (List UInt8 × VerificationPolicy) := do
  let bytes ← Outcome.ofOption .io (files policyPath)
  let policy ← VerificationPolicy.fromJsonBytes fmt bytes
  return (bytes, policy)

/-- The second half of `load_verified`: the sidecar is read, if there are trusted keys, and checked
against the bytes that were parsed. -/
def verifySidecar (f : Faest) (files : Files) (policyPath : FilePath)
    (trustedPubs : List f.VerificationKey) (bytes : List UInt8) : Outcome PolicyFileError Unit :=
  if trustedPubs = [] then .ok ()
  else do
    let sigPath := sidecarPath policyPath
    let sigB64 ← Outcome.ofOption (invalidFile ("policy sidecar " ++ fmt.displayPath sigPath
      ++ " required when trusted keys are configured")) ((files sigPath).bind fromUtf8)
    let sigBytes ← Outcome.ofOption (invalidFile "policy sidecar bad base64")
      (Base64.decode .standard (trim sigB64.toList))
    Outcome.require (trustedPubs.any (fun vk => f.verify vk bytes sigBytes) = true)
      (invalidFile "policy sidecar signature does not verify under any trusted key")

/-- `load_verified`. -/
def loadVerified (f : Faest) (files : Files) (policyPath : FilePath)
    (trustedPubs : List f.VerificationKey) : Outcome PolicyFileError VerificationPolicy := do
  let (bytes, policy) ← readPolicy fmt files policyPath
  verifySidecar fmt f files policyPath trustedPubs bytes
  return policy

/-- `evidence_profile_for_gate`. -/
def evidenceProfileForGate (gate : String) : Outcome PolicyFileError EvidenceProfile :=
  if gate = "uq" then .ok .uqEat
  else if gate = "azure" then .ok .azureSnpBundle
  else if gate = "azure-tls" then .ok .azureAttestedTls
  else if gate ∈ ["android-key", "android"] then .ok .androidKeyAttestation
  else if gate ∈ ["ios-app-attest", "ios"] then .ok .iosAppAttest
  else if gate ∈ ["desktop-tpm", "linux-tpm", "windows-tpm"] then .ok .desktopTpmClient
  else if gate ∈ ["macos-app-attest", "macos"] then .ok .macOsAppAttest
  else .err (invalidFile ("unknown gate '" ++ gate ++ "'"))

/-- The part of `load_for_attester` after the policy is verified. -/
def checkForGate (gate : String) (now : Int) (policy : VerificationPolicy) :
    Outcome PolicyFileError Unit := do
  Outcome.require (policy.isExpired now = false) (invalidFile ("policy " ++ policy.id
    ++ " expired (valid_until=" ++ fmt.debugUntil policy.validUntil ++ ")"))
  let want ← evidenceProfileForGate gate
  Outcome.require (policy.evidenceProfile = want) (invalidFile ("policy evidence_profile "
    ++ policy.evidenceProfile.debug ++ " does not match --gate " ++ gate
    ++ " (" ++ want.debug ++ ")"))

/-- `load_for_attester`. -/
def loadForAttester (f : Faest) (files : Files) (path : FilePath) (gate : String)
    (trustedPubs : List f.VerificationKey) (now : Int) :
    Outcome PolicyFileError VerificationPolicy := do
  let policy ← loadVerified fmt f files path trustedPubs
  checkForGate fmt gate now policy
  return policy

/-- What `sign_policy_file` writes: the signature on the bytes in base64. -/
def sidecarOf (f : Faest) (sk : f.SigningKey) (bytes : List UInt8) : List UInt8 :=
  utf8 (String.ofList (Base64.encode .standard (f.sign sk bytes)))

/-- `sign_policy_file` up to the write: the bytes it has read, and what it writes into the
sidecar. -/
def signPolicy (f : Faest) (files : Files) (policyPath : FilePath) (env : Option String) :
    Outcome PolicyFileError (List UInt8 × List UInt8) := do
  let (bytes, _) ← readPolicy fmt files policyPath
  let sk ← signingKeyFromEnv f env
  return (bytes, sidecarOf f sk bytes)

/-! ## What is accepted -/

variable {fmt}

theorem VerificationPolicy.fromJsonBytes_eq_ok {bytes : List UInt8} {p : VerificationPolicy} :
    fromJsonBytes fmt bytes = .ok p ↔ fmt.fromSlice bytes = some p ∧ p.Validated := by
  simp only [fromJsonBytes, Outcome.bind_eq_ok, Outcome.ofOption_eq_ok, Outcome.mapErr_eq_ok,
    Outcome.pure_eq_ok, Outcome.ok.injEq]
  constructor
  · rintro ⟨q, hq, _, hvalid, rfl⟩
    exact ⟨hq, VerificationPolicy.validate_eq_ok.mp hvalid⟩
  · rintro ⟨hp, hvalid⟩
    exact ⟨p, hp, (), VerificationPolicy.validate_eq_ok.mpr hvalid, rfl⟩

theorem readPolicy_eq_ok {files : Files} {path : FilePath} {bytes : List UInt8}
    {p : VerificationPolicy} :
    readPolicy fmt files path = .ok (bytes, p) ↔
      files path = some bytes ∧ fmt.fromSlice bytes = some p ∧ p.Validated := by
  simp only [readPolicy, Outcome.bind_eq_ok, Outcome.ofOption_eq_ok,
    VerificationPolicy.fromJsonBytes_eq_ok, Outcome.pure_eq_ok, Outcome.ok.injEq, Prod.mk.injEq]
  constructor
  · rintro ⟨bytes, hbytes, p, hp, rfl, rfl⟩
    exact ⟨hbytes, hp⟩
  · rintro ⟨hbytes, hp⟩
    exact ⟨bytes, hbytes, p, hp, rfl, rfl⟩

/-- **What is signed**: the bytes of a valid policy, as they were read. -/
theorem signPolicy_eq_ok {f : Faest} {files : Files} {path : FilePath} {env : Option String}
    {bytes sidecar : List UInt8} :
    signPolicy fmt f files path env = .ok (bytes, sidecar) ↔
      files path = some bytes ∧ (∃ p, fmt.fromSlice bytes = some p ∧ p.Validated) ∧
      ∃ sk, signingKeyFromEnv f env = .ok sk ∧ sidecar = sidecarOf f sk bytes := by
  simp only [signPolicy, Outcome.bind_eq_ok, Outcome.pure_eq_ok, Outcome.ok.injEq, Prod.mk.injEq]
  constructor
  · rintro ⟨⟨bytes, p⟩, hread, sk, hsk, rfl, rfl⟩
    obtain ⟨hfile, hp⟩ := readPolicy_eq_ok.mp hread
    exact ⟨hfile, ⟨p, hp⟩, sk, hsk, rfl⟩
  · rintro ⟨hfile, ⟨p, hp⟩, sk, hsk, rfl⟩
    exact ⟨(bytes, p), readPolicy_eq_ok.mpr ⟨hfile, hp⟩, sk, hsk, rfl, rfl⟩

/-- A sidecar that counts: it holds a signature on the bytes that some trusted key verifies. -/
def SidecarVerifies (f : Faest) (files : Files) (policyPath : FilePath)
    (trustedPubs : List f.VerificationKey) (bytes : List UInt8) : Prop :=
  ∃ text sig vk, files (sidecarPath policyPath) = some (utf8 text) ∧
    Base64.decode .standard (trim text.toList) = some sig ∧
    vk ∈ trustedPubs ∧ f.verify vk bytes sig = true

/-- **What a sidecar is checked for**: nothing, if there is no trusted key. -/
theorem verifySidecar_eq_ok {f : Faest} {files : Files} {path : FilePath}
    {trusted : List f.VerificationKey} {bytes : List UInt8} :
    verifySidecar fmt f files path trusted bytes = .ok () ↔
      trusted = [] ∨ SidecarVerifies f files path trusted bytes := by
  unfold verifySidecar
  by_cases hnone : trusted = []
  · simp [hnone]
  · rw [if_neg hnone]
    simp only [Outcome.bind_eq_ok, Outcome.ofOption_eq_ok, Outcome.require_eq_ok,
      Option.bind_eq_some_iff, fromUtf8_eq_some, List.any_eq_true, hnone, false_or,
      SidecarVerifies]
    constructor
    · rintro ⟨text, ⟨raw, hraw, rfl⟩, sig, hsig, vk, hvk, hverify⟩
      exact ⟨text, sig, vk, hraw, hsig, hvk, hverify⟩
    · rintro ⟨text, sig, vk, hraw, hsig, hvk, hverify⟩
      exact ⟨text, ⟨_, hraw, rfl⟩, sig, hsig, vk, hvk, hverify⟩

theorem checkForGate_eq_ok {gate : String} {now : Int} {p : VerificationPolicy} :
    checkForGate fmt gate now p = .ok () ↔
      p.isExpired now = false ∧ evidenceProfileForGate gate = .ok p.evidenceProfile := by
  simp only [checkForGate, Outcome.bind_eq_ok, Outcome.require_eq_ok, exists_const]
  constructor
  · rintro ⟨hexp, want, hwant, hsame⟩
    exact ⟨hexp, hsame ▸ hwant⟩
  · rintro ⟨hexp, hwant⟩
    exact ⟨hexp, _, hwant, rfl⟩

/-- The sidecar that `sign_policy_file` writes counts for everyone who trusts the key. -/
theorem sidecarVerifies_sign {f : Faest} {sk : f.SigningKey} {vk : f.VerificationKey}
    (hkey : ∀ msg, f.verify vk msg (f.sign sk msg) = true) {files : Files} {path : FilePath}
    {trusted : List f.VerificationKey} (hvk : vk ∈ trusted) {bytes : List UInt8}
    (hsidecar : files (sidecarPath path) = some (sidecarOf f sk bytes)) :
    SidecarVerifies f files path trusted bytes :=
  ⟨_, f.sign sk bytes, vk, hsidecar,
    by rw [String.toList_ofList, Base64.trim_encode, Base64.decode_encode], hvk, hkey bytes⟩

end EatPass
