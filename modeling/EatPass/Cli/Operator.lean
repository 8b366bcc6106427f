import Mathlib.Logic.Function.Basic
import EatPass.Cli.Attester
import EatPass.Infra.Trace
import EatPass.Policy.Sign

/-!
# The operator's commands

`eat-pass policy sign` and the start of `eat-pass attester` as processes over the same files. A
command touches the files twice: `sign` reads the policy and later writes the sidecar, an attester
that is started reads the policy and later reads the sidecar. Between the two, other commands run
and anyone who may write changes any file.

* `AttesterArgs.start_eq` — the two halves of a start, on files that stay as they are, are what
  `main` and `run` compute
* `Operator.step_cases` — everything a step can do
-/

namespace EatPass

open Infra

/-- `parse_gate`. -/
def parseGate (gate : String) : Outcome String Backend :=
  if gate = "uq" then .ok .uq
  else if gate = "azure" then .ok .azure
  else if gate = "azure-tls" then .ok .azureTls
  else if gate ∈ ["android-key", "android"] then .ok .androidKey
  else if gate ∈ ["ios-app-attest", "ios"] then .ok .iosAppAttest
  else if gate ∈ ["desktop-tpm", "linux-tpm", "windows-tpm"] then .ok .desktopTpm
  else if gate ∈ ["macos-app-attest", "macos"] then .ok .macOsAppAttest
  else .err ("unknown --gate '" ++ gate ++ "' (expected uq, azure, azure-tls, android-key, "
    ++ "ios-app-attest, desktop-tpm, macos-app-attest)")

/-- The two tables of gate names agree: the profile that the policy must have is the profile of the
gate that is started. -/
theorem evidenceProfileForGate_of_parseGate {gate : String} {backend : Backend}
    (h : parseGate gate = .ok backend) :
    evidenceProfileForGate gate = .ok backend.profile := by
  unfold parseGate at h
  unfold evidenceProfileForGate
  repeat' split at h
  all_goals cases h
  all_goals simp [*, Backend.profile]

/-- `attester_seed_from_env`; the argument is the value of `EATPASS_ATTESTER_SEED`, if it is
set. -/
def attesterSeedFromEnv (env : Option String) : Outcome String (Bytes 32) := do
  let text ← Outcome.ofOption ("EATPASS_ATTESTER_SEED is required (64 hex chars): stable ed25519 "
    ++ "seed for issuance-authorization signatures. Generate with `openssl rand -hex 32`.") env
  let bytes ← Outcome.ofOption "EATPASS_ATTESTER_SEED bad hex" (Hex.decode (trim text.toList))
  Outcome.ofOption "EATPASS_ATTESTER_SEED must be exactly 32 bytes (64 hex chars)"
    (toBytes? 32 bytes)

theorem attesterSeedFromEnv_encode (seed : Bytes 32) :
    attesterSeedFromEnv (some (String.ofList (Hex.encode seed.val))) = .ok seed := by
  simp only [attesterSeedFromEnv, Outcome.ofOption_some, Outcome.ok_bind, String.toList_ofList,
    Hex.trim_encode, Hex.decode_encode, toBytes?_val]

/-! ## Starting an attester -/

/-- What an attester is started with: its arguments and its environment. -/
structure AttesterArgs where
  gate : String
  policy : FilePath
  authTtlSecs : UInt64
  /-- `EATPASS_POLICY_TRUSTED_PUB`. -/
  trustedPub : Option String
  /-- `EATPASS_ATTESTER_SEED`. -/
  seed : Option String
deriving DecidableEq

/-- An attester that has read its policy and not yet the sidecar. -/
structure StartTask (C : Crypto) where
  args : AttesterArgs
  backend : Backend
  trusted : List C.faest.VerificationKey
  bytes : List UInt8
  policy : VerificationPolicy

variable {C : Crypto} (fmt : PolicyFormat)

/-- `main` and `run` up to the first read. -/
def AttesterArgs.begin (C : Crypto) (args : AttesterArgs) (files : Files) :
    Outcome String (StartTask C) := do
  let backend ← parseGate args.gate
  let trusted ← (trustedPubsFromEnv C.faest args.trustedPub).mapErr PolicyFileError.message
  let (bytes, policy) ← (readPolicy fmt files args.policy).mapErr PolicyFileError.message
  return { args, backend, trusted, bytes, policy }

/-- The rest of `run`, up to where it serves. -/
def StartTask.finish (t : StartTask C) (files : Files) (now : Int) :
    Outcome String (AttesterConfig C) := do
  (verifySidecar fmt C.faest files t.args.policy t.trusted t.bytes).mapErr PolicyFileError.message
  (checkForGate fmt t.args.gate now t.policy).mapErr PolicyFileError.message
  let seed ← attesterSeedFromEnv t.args.seed
  return { signer := C.faest.signingKeyFromSeed seed
           ttlSecs := t.args.authTtlSecs
           backend := t.backend
           policy := t.policy }

/-- `main` and `run` up to where it serves. -/
def AttesterArgs.start (C : Crypto) (args : AttesterArgs) (files : Files) (now : Int) :
    Outcome String (AttesterConfig C) := do
  let backend ← parseGate args.gate
  let trusted ← (trustedPubsFromEnv C.faest args.trustedPub).mapErr PolicyFileError.message
  let policy ← (loadForAttester fmt C.faest files args.policy args.gate trusted now).mapErr
    PolicyFileError.message
  let seed ← attesterSeedFromEnv args.seed
  return { signer := C.faest.signingKeyFromSeed seed
           ttlSecs := args.authTtlSecs
           backend
           policy }

/-- A start is its two halves. -/
theorem AttesterArgs.start_eq (args : AttesterArgs) (files : Files) (now : Int) :
    args.start fmt C files now = (args.begin fmt C files >>= fun t => t.finish fmt files now) := by
  unfold start begin
  cases parseGate args.gate with
  | err e => rfl
  | panic => rfl
  | ok backend =>
    cases trustedPubsFromEnv C.faest args.trustedPub with
    | err e => rfl
    | panic => rfl
    | ok trusted =>
      simp only [Outcome.ok_bind, Outcome.mapErr_ok, loadForAttester, loadVerified]
      cases readPolicy fmt files args.policy with
      | err e => rfl
      | panic => rfl
      | ok read =>
        simp only [Outcome.ok_bind, Outcome.mapErr_ok, StartTask.finish, Outcome.pure_eq_ok]
        cases verifySidecar fmt C.faest files args.policy trusted read.1 with
        | err e => rfl
        | panic => rfl
        | ok _ =>
          simp only [Outcome.ok_bind, Outcome.mapErr_ok]
          cases checkForGate fmt args.gate now read.2 <;> rfl

/-- What an attester has made sure of when it has read its policy. -/
structure StartTask.Loaded (t : StartTask C) : Prop where
  gate : parseGate t.args.gate = .ok t.backend
  trusted : trustedPubsFromEnv C.faest t.args.trustedPub = .ok t.trusted
  parsed : fmt.fromSlice t.bytes = some t.policy
  valid : t.policy.Validated

variable {fmt}

theorem AttesterArgs.begin_eq_ok {args : AttesterArgs} {files : Files} {t : StartTask C} :
    args.begin fmt C files = .ok t ↔
      t.args = args ∧ t.Loaded fmt ∧ files args.policy = some t.bytes := by
  simp only [begin, Outcome.bind_eq_ok, Outcome.mapErr_eq_ok, Outcome.pure_eq_ok, Outcome.ok.injEq]
  constructor
  · rintro ⟨backend, hgate, trusted, htrusted, ⟨bytes, policy⟩, hread, rfl⟩
    obtain ⟨hfile, hparsed, hvalid⟩ := readPolicy_eq_ok.mp hread
    exact ⟨rfl, ⟨hgate, htrusted, hparsed, hvalid⟩, hfile⟩
  · rintro ⟨rfl, hloaded, hfile⟩
    exact ⟨_, hloaded.gate, _, hloaded.trusted, (t.bytes, t.policy),
      readPolicy_eq_ok.mpr ⟨hfile, hloaded.parsed, hloaded.valid⟩, rfl⟩

theorem StartTask.finish_eq_ok {t : StartTask C} {files : Files} {now : Int}
    {cfg : AttesterConfig C} :
    t.finish fmt files now = .ok cfg ↔
      (t.trusted = [] ∨ SidecarVerifies C.faest files t.args.policy t.trusted t.bytes) ∧
      (t.policy.isExpired now = false ∧
        evidenceProfileForGate t.args.gate = .ok t.policy.evidenceProfile) ∧
      ∃ seed, attesterSeedFromEnv t.args.seed = .ok seed ∧
        cfg = ⟨C.faest.signingKeyFromSeed seed, t.args.authTtlSecs, t.backend, t.policy⟩ := by
  simp only [finish, Outcome.bind_eq_ok, Outcome.mapErr_eq_ok, Outcome.pure_eq_ok,
    Outcome.ok.injEq]
  constructor
  · rintro ⟨_, hsidecar, _, hgate, seed, hseed, rfl⟩
    exact ⟨verifySidecar_eq_ok.mp hsidecar, checkForGate_eq_ok.mp hgate, seed, hseed, rfl⟩
  · rintro ⟨hsidecar, hgate, seed, hseed, rfl⟩
    exact ⟨(), verifySidecar_eq_ok.mpr hsidecar, (), checkForGate_eq_ok.mpr hgate, seed, hseed, rfl⟩

/-! ## Commands in flight -/

/-- A `policy sign` that has signed and not yet written. -/
structure SidecarTask where
  policyPath : FilePath
  sidecar : List UInt8
deriving DecidableEq

/-- The files, and the commands that are between their two accesses. -/
structure Operator (C : Crypto) where
  files : Files
  signs : Nat → Option SidecarTask
  starts : Nat → Option (StartTask C)

/-- One access to the files. -/
inductive OperatorEvent where
  /-- Anyone changes a file, or removes it. -/
  | write (path : FilePath) (content : Option (List UInt8))
  /-- `policy sign` reads, with the value of `EATPASS_POLICY_SIGNING_SEED`. -/
  | sign (task : Nat) (policyPath : FilePath) (seed : Option String)
  /-- `policy sign` writes; what a write that fails leaves in the file is a `write` of its own. -/
  | writeSidecar (task : Nat) (fails : Bool)
  /-- An attester reads its policy. -/
  | start (task : Nat) (args : AttesterArgs)
  /-- An attester reads the sidecar and starts. -/
  | finish (task : Nat) (now : Int)
deriving DecidableEq

inductive OperatorReply (C : Crypto) where
  | written
  /-- The bytes a command has read and goes on with. -/
  | read (result : Outcome String (List UInt8))
  | signed (result : Outcome PolicyFileError FilePath)
  | started (result : Outcome String (AttesterConfig C))

/-- What has happened so far, oldest first. -/
abbrev OperatorHistory (C : Crypto) := List (OperatorEvent × OperatorReply C)

/-- No file, and no command in flight. -/
def Operator.init : Operator C where
  files _ := none
  signs _ := none
  starts _ := none

variable (fmt)

/-- One access. The number of a command is fresh when it is run. -/
def Operator.step (s : Operator C) : OperatorEvent → Option (Operator C × OperatorReply C)
  | .write path content =>
    some ({ s with files := Function.update s.files path content }, .written)
  | .sign task policyPath seed =>
    if (s.signs task).isSome then none
    else
      match signPolicy fmt C.faest s.files policyPath seed with
      | .ok (bytes, sidecar) =>
        some ({ s with signs := Function.update s.signs task (some ⟨policyPath, sidecar⟩) },
          .read (.ok bytes))
      | .err e => some (s, .read (.err e.message))
      | .panic => some (s, .read .panic)
  | .writeSidecar task fails =>
    match s.signs task with
    | none => none
    | some t =>
      let s := { s with signs := Function.update s.signs task none }
      if fails then some (s, .signed (.err .io))
      else
        let out := sidecarPath t.policyPath
        some ({ s with files := Function.update s.files out (some t.sidecar) }, .signed (.ok out))
  | .start task args =>
    if (s.starts task).isSome then none
    else
      match args.begin fmt C s.files with
      | .ok t =>
        some ({ s with starts := Function.update s.starts task (some t) }, .read (.ok t.bytes))
      | .err e => some (s, .read (.err e))
      | .panic => some (s, .read .panic)
  | .finish task now =>
    match s.starts task with
    | none => none
    | some t =>
      some ({ s with starts := Function.update s.starts task none },
        .started (t.finish fmt s.files now))

variable {fmt}

/-- A `policy sign` of a policy that is there. -/
theorem Operator.step_sign_eq {s s' : Operator C} {task : Nat} {path : FilePath}
    {seed : Option String} {bytes : List UInt8} :
    Operator.step fmt s (.sign task path seed) = some (s', .read (.ok bytes)) ↔
      s.signs task = none ∧ ∃ sidecar,
        signPolicy fmt C.faest s.files path seed = .ok (bytes, sidecar) ∧
        s' = { s with signs := Function.update s.signs task (some ⟨path, sidecar⟩) } := by
  simp only [step]
  cases s.signs task with
  | some t => simp
  | none =>
    cases signPolicy fmt C.faest s.files path seed with
    | ok read =>
      obtain ⟨bytes', sidecar⟩ := read
      simp only [Option.isSome_none, Bool.false_eq_true, if_false, Option.some.injEq,
        Prod.mk.injEq, OperatorReply.read.injEq, Outcome.ok.injEq, true_and]
      constructor
      · rintro ⟨rfl, rfl⟩
        exact ⟨sidecar, ⟨rfl, rfl⟩, rfl⟩
      · rintro ⟨sidecar', ⟨rfl, rfl⟩, rfl⟩
        exact ⟨rfl, rfl⟩
    | err e => simp
    | panic => simp

/-- An attester that reads a valid policy and knows its keys is in flight. -/
theorem Operator.step_start_eq {s : Operator C} {task : Nat} {t : StartTask C}
    (hnone : s.starts task = none) (hloaded : t.Loaded fmt)
    (hfile : s.files t.args.policy = some t.bytes) :
    Operator.step fmt s (.start task t.args)
      = some ({ s with starts := Function.update s.starts task (some t) },
          .read (.ok t.bytes)) := by
  have hbegin : t.args.begin fmt C s.files = .ok t :=
    AttesterArgs.begin_eq_ok.mpr ⟨rfl, hloaded, hfile⟩
  simp [step, hnone, hbegin]

/-- **What a step does**: it changes a file, or a command reads and is in flight, or reads and
fails, or a command in flight is done. -/
theorem Operator.step_cases {s s' : Operator C} {e : OperatorEvent} {r : OperatorReply C}
    (h : Operator.step fmt s e = some (s', r)) :
    (∃ path content, e = .write path content ∧ r = .written ∧
      s' = { s with files := Function.update s.files path content }) ∨
    (∃ task path seed bytes sidecar, e = .sign task path seed ∧ r = .read (.ok bytes) ∧
      signPolicy fmt C.faest s.files path seed = .ok (bytes, sidecar) ∧
      s' = { s with signs := Function.update s.signs task (some ⟨path, sidecar⟩) }) ∨
    (∃ task args t, e = .start task args ∧ r = .read (.ok t.bytes) ∧
      args.begin fmt C s.files = .ok t ∧
      s' = { s with starts := Function.update s.starts task (some t) }) ∨
    ((∃ result, r = .read result ∧ ∀ bytes, result ≠ .ok bytes) ∧ s' = s ∧
      ((∃ task path seed, e = .sign task path seed) ∨ ∃ task args, e = .start task args)) ∨
    (∃ task fails t, e = .writeSidecar task fails ∧ s.signs task = some t ∧
      r = .signed (if fails then .err .io else .ok (sidecarPath t.policyPath)) ∧
      s' = { s with
        signs := Function.update s.signs task none
        files := if fails then s.files
          else Function.update s.files (sidecarPath t.policyPath) (some t.sidecar) }) ∨
    (∃ task now t, e = .finish task now ∧ s.starts task = some t ∧
      r = .started (t.finish fmt s.files now) ∧
      s' = { s with starts := Function.update s.starts task none }) := by
  cases e with
  | write path content =>
    obtain ⟨rfl, rfl⟩ := Prod.mk.inj (Option.some.inj h)
    exact .inl ⟨path, content, rfl, rfl, rfl⟩
  | sign task path seed =>
    simp only [step] at h
    split at h
    · cases h
    · split at h
      · next bytes sidecar hsign =>
        obtain ⟨rfl, rfl⟩ := Prod.mk.inj (Option.some.inj h)
        exact .inr (.inl ⟨task, path, seed, bytes, sidecar, rfl, rfl, hsign, rfl⟩)
      all_goals
        obtain ⟨rfl, rfl⟩ := Prod.mk.inj (Option.some.inj h)
        exact .inr (.inr (.inr (.inl ⟨⟨_, rfl, by simp⟩, rfl, .inl ⟨task, path, seed, rfl⟩⟩)))
  | start task args =>
    simp only [step] at h
    split at h
    · cases h
    · split at h
      · next t hbegin =>
        obtain ⟨rfl, rfl⟩ := Prod.mk.inj (Option.some.inj h)
        exact .inr (.inr (.inl ⟨task, args, t, rfl, rfl, hbegin, rfl⟩))
      all_goals
        obtain ⟨rfl, rfl⟩ := Prod.mk.inj (Option.some.inj h)
        exact .inr (.inr (.inr (.inl ⟨⟨_, rfl, by simp⟩, rfl, .inr ⟨task, args, rfl⟩⟩)))
  | writeSidecar task fails =>
    simp only [step] at h
    split at h
    · cases h
    · next t ht =>
      refine .inr (.inr (.inr (.inr (.inl ⟨task, fails, t, rfl, ht, ?_⟩))))
      cases fails <;> obtain ⟨rfl, rfl⟩ := Prod.mk.inj (Option.some.inj h) <;> exact ⟨rfl, rfl⟩
  | finish task now =>
    simp only [step] at h
    split at h
    · cases h
    · next t ht =>
      obtain ⟨rfl, rfl⟩ := Prod.mk.inj (Option.some.inj h)
      exact .inr (.inr (.inr (.inr (.inr ⟨task, now, t, rfl, ht, rfl, rfl⟩))))

end EatPass
