import EatPass.Core.Sample
import EatPass.Cli.Operator

/-!
# Signed policies

What a policy signature is worth when the files can be changed at any time, also between the two
reads of an attester that starts:

* `started_attester_loaded` — an attester serves a policy that was signed under a key it trusts, if
  it trusts any
* `signed_policy_starts` — a policy that is signed and left alone starts an attester, whatever else
  is signed meanwhile
* `signed_policy_restarts` — a policy that was signed once starts one for as long as it has not
  expired: nothing replaces it

That signatures are not forged is a hypothesis about the run (`PolicyUnforged`), that they verify is
one about FAEST (`Faest.Complete`).
-/

namespace EatPass

open Infra

variable {C : Crypto} {fmt : PolicyFormat}

/-! ## What a run says -/

/-- A `policy sign` read the bytes and signed them, with the secret part of the key. -/
def SignedPolicy (vk : C.faest.VerificationKey) (h : OperatorHistory C) (bytes : List UInt8) :
    Prop :=
  ∃ task path seed sk, (OperatorEvent.sign task path seed, OperatorReply.read (.ok bytes)) ∈ h ∧
    signingKeyFromEnv C.faest seed = .ok sk ∧
    C.faest.verifyingKeyFromBytes (C.faest.publicBytesFromSk sk) = some vk

/-- An attester was started and read these bytes, and has not finished. -/
def Begun (h : OperatorHistory C) (task : Nat) (args : AttesterArgs) (bytes : List UInt8) : Prop :=
  ∃ before after, h = before ++ (.start task args, .read (.ok bytes)) :: after ∧
    ∀ x ∈ after, ∀ now, x.1 ≠ .finish task now

/-- **Policy signatures cannot be forged** in the run: when an attester reads a sidecar that
verifies on its bytes under a key it trusts, the bytes were signed with that key before. -/
def PolicyUnforged (fmt : PolicyFormat) (h : OperatorHistory C) : Prop :=
  ∀ before task now reply after s t, h = before ++ (.finish task now, reply) :: after →
    Trace (Operator.step fmt) .init before s → s.starts task = some t →
    ∀ vk ∈ t.trusted, SidecarVerifies C.faest s.files t.args.policy [vk] t.bytes →
      SignedPolicy vk before t.bytes

theorem SidecarVerifies.exists_key {f : Faest} {files : Files} {path : FilePath}
    {trusted : List f.VerificationKey} {bytes : List UInt8}
    (h : SidecarVerifies f files path trusted bytes) :
    ∃ vk ∈ trusted, SidecarVerifies f files path [vk] bytes := by
  obtain ⟨text, sig, vk, hfile, hsig, hvk, hverify⟩ := h
  exact ⟨vk, hvk, text, sig, vk, hfile, hsig, List.mem_singleton_self vk, hverify⟩

/-! ## Attesters in flight -/

/-- What every attester in flight has read and made sure of. -/
def StartsLoaded (fmt : PolicyFormat) (h : OperatorHistory C) (s : Operator C) : Prop :=
  ∀ task t, s.starts task = some t → t.Loaded fmt ∧ Begun h task t.args t.bytes

theorem Begun.snoc {h : OperatorHistory C} {task : Nat} {args : AttesterArgs} {bytes : List UInt8}
    {e : OperatorEvent} {r : OperatorReply C} (hb : Begun h task args bytes)
    (hne : ∀ now, e ≠ .finish task now) : Begun (h ++ [(e, r)]) task args bytes := by
  obtain ⟨before, after, rfl, hafter⟩ := hb
  refine ⟨before, after ++ [(e, r)], by simp, fun x hx => ?_⟩
  rcases List.mem_append.mp hx with hx | hx
  · exact hafter x hx
  · rw [List.mem_singleton.mp hx]
    exact hne

/-- A step that starts and finishes no attester. -/
theorem StartsLoaded.snoc {h : OperatorHistory C} {s s' : Operator C} {e : OperatorEvent}
    {r : OperatorReply C} (hs : StartsLoaded fmt h s) (hstarts : s'.starts = s.starts)
    (hne : ∀ task now, e ≠ .finish task now) : StartsLoaded fmt (h ++ [(e, r)]) s' := by
  intro task t ht
  obtain ⟨hloaded, hbegun⟩ := hs task t (hstarts ▸ ht)
  exact ⟨hloaded, hbegun.snoc (hne task)⟩

theorem startsLoaded_trace {h : OperatorHistory C} {s : Operator C}
    (ht : Trace (Operator.step fmt) .init h s) : StartsLoaded fmt h s := by
  refine Trace.invariant (StartsLoaded fmt) (fun _ _ hnone => by cases hnone) ?_ ht
  intro h s e s' r _ ih hstep
  rcases Operator.step_cases hstep with ⟨_, _, rfl, -, rfl⟩ | ⟨_, _, _, _, _, rfl, -, -, rfl⟩ |
    ⟨task, args, t, rfl, rfl, hbegin, rfl⟩ | ⟨-, rfl, ⟨_, _, _, rfl⟩ | ⟨_, _, rfl⟩⟩ |
    ⟨_, _, _, rfl, -, -, rfl⟩ | ⟨task, now, t, rfl, -, -, rfl⟩
  · exact ih.snoc rfl (by simp)
  · exact ih.snoc rfl (by simp)
  · -- the new attester is the last element, and the others do not finish
    intro other u hu
    by_cases hother : other = task
    · subst hother
      obtain rfl : t = u := by simpa using hu
      obtain ⟨rfl, hloaded, -⟩ := AttesterArgs.begin_eq_ok.mp hbegin
      exact ⟨hloaded, h, [], rfl, by simp⟩
    · have hold : s.starts other = some u := by simpa [hother] using hu
      obtain ⟨hloaded, hbegun⟩ := ih other u hold
      exact ⟨hloaded, hbegun.snoc (by simp)⟩
  · exact ih.snoc rfl (by simp)
  · exact ih.snoc rfl (by simp)
  · exact ih.snoc rfl (by simp)
  · intro other u hu
    by_cases hother : other = task
    · subst hother
      simp at hu
    · have hold : s.starts other = some u := by simpa [hother] using hu
      obtain ⟨hloaded, hbegun⟩ := ih other u hold
      exact ⟨hloaded, hbegun.snoc fun _ heq => hother (OperatorEvent.finish.inj heq).1.symm⟩

/-- An attester in flight that finds the sidecar of a key it trusts. -/
theorem Operator.finish_started {s : Operator C} {task : Nat} {t : StartTask C}
    (hpending : s.starts task = some t) (hloaded : t.Loaded fmt)
    (hsidecar : t.trusted = [] ∨ SidecarVerifies C.faest s.files t.args.policy t.trusted t.bytes)
    {seed : Bytes 32} (hseed : attesterSeedFromEnv t.args.seed = .ok seed) {now : Int}
    (hexp : t.policy.isExpired now = false)
    (hprofile : t.policy.evidenceProfile = t.backend.profile) :
    Operator.step fmt s (.finish task now)
      = some ({ s with starts := Function.update s.starts task none }, .started (.ok
          ⟨C.faest.signingKeyFromSeed seed, t.args.authTtlSecs, t.backend, t.policy⟩)) := by
  have hgate : evidenceProfileForGate t.args.gate = .ok t.policy.evidenceProfile :=
    hprofile ▸ evidenceProfileForGate_of_parseGate hloaded.gate
  have hfinish : t.finish fmt s.files now
      = .ok ⟨C.faest.signingKeyFromSeed seed, t.args.authTtlSecs, t.backend, t.policy⟩ :=
    StartTask.finish_eq_ok.mpr ⟨hsidecar, ⟨hexp, hgate⟩, seed, hseed, rfl⟩
  simp [Operator.step, hpending, hfinish]

/-- The attester trusts no key at all, or the one that the seed stands for. -/
def TrustsSigner (C : Crypto) (trusted : List C.faest.VerificationKey) (seed : Option String) :
    Prop :=
  trusted = [] ∨ ∃ sk vk, signingKeyFromEnv C.faest seed = .ok sk ∧
    C.faest.verifyingKeyFromBytes (C.faest.publicBytesFromSk sk) = some vk ∧ vk ∈ trusted

/-- What signing leaves in the sidecar is accepted from there. -/
theorem TrustsSigner.accepts {trusted : List C.faest.VerificationKey} {seed : Option String}
    (h : TrustsSigner C trusted seed) (hcomplete : C.faest.Complete) {sk : C.faest.SigningKey}
    (hsk : signingKeyFromEnv C.faest seed = .ok sk) {files : Files} {path : FilePath}
    {bytes : List UInt8}
    (hsidecar : files (sidecarPath path) = some (sidecarOf C.faest sk bytes)) :
    trusted = [] ∨ SidecarVerifies C.faest files path trusted bytes := by
  rcases h with hnone | ⟨sk', vk, hsk', hpub, hvk⟩
  · exact .inl hnone
  · obtain rfl : sk' = sk := Outcome.ok.inj (hsk'.symm.trans hsk)
    obtain ⟨vk', hpub', hverify⟩ := hcomplete sk'
    obtain rfl : vk' = vk := Option.some.inj (hpub'.symm.trans hpub)
    exact .inr (sidecarVerifies_sign hverify hvk hsidecar)

/-! ## A run that starts an attester -/

/-- A policy for one build. -/
def cvmPolicy : VerificationPolicy where
  version := 1
  id := "cvm"
  validUntil := some 100
  evidenceProfile := .uqEat
  «class» := ⟨"accepted-builds", 1⟩
  registryMinimum := .recommended
  minTier := .softwareWitness
  allowedTierDetails := []
  allow := [⟨some [1], none, none⟩]
  requireIma := false
  bootAggregates := []
  desktopTpmEkRoots := []
  desktopTpmActivationPubkeys := []
  notes := none

/-- Every file holds the policy. -/
def cvmFormat : PolicyFormat where
  fromSlice _ := some cvmPolicy
  displayPath _ := "policy.json"
  debugUntil _ := "None"

def cvmPath : FilePath := ⟨[], some (utf8 "policy.json")⟩

/-- The variable that holds the seed of the operator and of the attester. -/
def cvmSeed : Option String := some (String.ofList (Hex.encode sampleSigningKey.val))

/-- The key of the operator, which the attester trusts. -/
def cvmPub : Bytes 32 := Crypto.sample.faest.publicBytesFromSk sampleSigningKey

def cvmArgs : AttesterArgs where
  gate := "uq"
  policy := cvmPath
  authTtlSecs := 60
  trustedPub := some (String.ofList
    ([','].intercalate ([cvmPub].map fun pub => Hex.encode pub.val)))
  seed := cvmSeed

def cvmTask : StartTask Crypto.sample := ⟨cvmArgs, .uq, [cvmPub], [7], cvmPolicy⟩

theorem cvmTask_loaded : cvmTask.Loaded cvmFormat := by
  have hkeys : List.Forall₂
      (fun pub key => Crypto.sample.faest.verifyingKeyFromBytes pub = some key) [cvmPub] [cvmPub] :=
    .cons rfl .nil
  exact ⟨rfl, trustedPubsFromEnv_encode (List.cons_ne_nil cvmPub []) hkeys, rfl,
    VerificationPolicy.validate_eq_ok.mp (by decide +kernel)⟩

theorem cvmSeed_signs : signingKeyFromEnv Crypto.sample.faest cvmSeed = .ok sampleSigningKey :=
  signingKeyFromEnv_encode Crypto.sample.faest sampleSigningKey

theorem cvmTask_trustsSigner : TrustsSigner Crypto.sample [cvmPub] cvmSeed :=
  .inr ⟨sampleSigningKey, cvmPub, cvmSeed_signs, rfl, List.mem_singleton_self cvmPub⟩

theorem Operator.step_sign_loaded {s : Operator C} {task : Nat} {t : StartTask C}
    (hfree : s.signs task = none) (hloaded : t.Loaded fmt)
    (hfile : s.files t.args.policy = some t.bytes) {env : Option String} {sk : C.faest.SigningKey}
    (hsk : signingKeyFromEnv C.faest env = .ok sk) :
    Operator.step fmt s (.sign task t.args.policy env)
      = some (⟨s.files, Function.update s.signs task
          (some ⟨t.args.policy, sidecarOf C.faest sk t.bytes⟩), s.starts⟩, .read (.ok t.bytes)) :=
  Operator.step_sign_eq.mpr ⟨hfree, _, signPolicy_eq_ok.mpr
    ⟨hfile, ⟨t.policy, hloaded.parsed, hloaded.valid⟩, sk, hsk, rfl⟩, rfl⟩

theorem Operator.step_writeSidecar_eq {s : Operator C} {task : Nat} {path : FilePath}
    {sidecar : List UInt8} (ht : s.signs task = some ⟨path, sidecar⟩) :
    Operator.step fmt s (.writeSidecar task false)
      = some (⟨Function.update s.files (sidecarPath path) (some sidecar),
          Function.update s.signs task none, s.starts⟩, .signed (.ok (sidecarPath path))) := by
  simp [Operator.step, ht]

/-- The operator writes a policy and signs it, and an attester reads it. -/
def signedRun (t : StartTask C) (env : Option String) : OperatorHistory C :=
  [(.write t.args.policy (some t.bytes), .written),
    (.sign 0 t.args.policy env, .read (.ok t.bytes)),
    (.writeSidecar 0 false, .signed (.ok (sidecarPath t.args.policy))),
    (.start 0 t.args, .read (.ok t.bytes))]

theorem signedRun_trace {t : StartTask C} (hloaded : t.Loaded fmt) {env : Option String}
    {sk : C.faest.SigningKey} (hsk : signingKeyFromEnv C.faest env = .ok sk) :
    ∃ s, Trace (Operator.step fmt) .init (signedRun t env) s ∧
      s.starts = Function.update (fun _ => none) 0 (some t) ∧
      s.files (sidecarPath t.args.policy) = some (sidecarOf C.faest sk t.bytes) ∧
      ∀ task, s.signs task = none := by
  let files := Function.update (fun _ => none) t.args.policy (some t.bytes)
  let files' := Function.update files (sidecarPath t.args.policy)
    (some (sidecarOf C.faest sk t.bytes))
  let signs : Nat → Option SidecarTask := Function.update (fun _ => none) 0
    (some ⟨t.args.policy, sidecarOf C.faest sk t.bytes⟩)
  have hread : files t.args.policy = some t.bytes := Function.update_self _ _ _
  have hsign : Operator.step fmt ⟨files, fun _ => none, fun _ => none⟩
      (.sign 0 t.args.policy env) = some (⟨files, signs, fun _ => none⟩, .read (.ok t.bytes)) :=
    Operator.step_sign_loaded rfl hloaded hread hsk
  have hwrite : Operator.step fmt (⟨files, signs, fun _ => none⟩ : Operator C)
      (.writeSidecar 0 false) = some (⟨files', Function.update signs 0 none, fun _ => none⟩,
        .signed (.ok (sidecarPath t.args.policy))) :=
    Operator.step_writeSidecar_eq (by simp [signs])
  have hfile : files' t.args.policy = some t.bytes := by
    simp [files', files, (sidecarPath_ne t.args.policy).symm]
  have hstart : Operator.step fmt ⟨files', Function.update signs 0 none, fun _ => none⟩
      (.start 0 t.args) = some (⟨files', Function.update signs 0 none,
        Function.update (fun _ => none) 0 (some t)⟩, .read (.ok t.bytes)) :=
    Operator.step_start_eq rfl hloaded hfile
  exact ⟨_, .snoc (.snoc (.snoc (.snoc .init rfl) hsign) hwrite) hstart, rfl, by simp [files'],
    fun task => by simp [signs]⟩

/-- Nobody has forged a signature in a run in which what the attester reads was signed. -/
theorem signedRun_unforged {t : StartTask C} (hloaded : t.Loaded fmt) {env : Option String}
    {sk : C.faest.SigningKey} (hsk : signingKeyFromEnv C.faest env = .ok sk)
    {vk : C.faest.VerificationKey} (htrusted : t.trusted = [vk])
    (hvk : C.faest.verifyingKeyFromBytes (C.faest.publicBytesFromSk sk) = some vk) {now : Int}
    {r : OperatorReply C} : PolicyUnforged fmt (signedRun t env ++ [(.finish 0 now, r)]) := by
  intro before task now' reply after s u hsplit htrace hpending vk' hvk' _
  -- the attester finishes last
  have hlast : before = signedRun t env ∧ task = 0 := by
    match before, hsplit with
    | [], hsplit | [_], hsplit | [_, _], hsplit | [_, _, _], hsplit => simp [signedRun] at hsplit
    | [_, _, _, _], hsplit =>
      simp only [signedRun, List.cons_append, List.nil_append, List.cons.injEq, Prod.mk.injEq,
        OperatorEvent.finish.injEq] at hsplit
      obtain ⟨rfl, rfl, rfl, rfl, ⟨⟨rfl, -⟩, -⟩, -⟩ := hsplit
      exact ⟨rfl, rfl⟩
    | _ :: _ :: _ :: _ :: _ :: _, hsplit => simp [signedRun] at hsplit
  obtain ⟨rfl, rfl⟩ := hlast
  obtain ⟨s', htrace', hstarts, -⟩ := signedRun_trace hloaded hsk
  obtain rfl : s' = s := Trace.state_unique htrace' htrace
  obtain rfl : t = u := by simpa [hstarts] using hpending
  rw [htrusted, List.mem_singleton] at hvk'
  exact ⟨0, t.args.policy, env, sk, by simp [signedRun], hsk, hvk' ▸ hvk⟩

/-- The run starts the attester. -/
theorem signedRun_started (hcomplete : C.faest.Complete) {t : StartTask C}
    (hloaded : t.Loaded fmt) {env : Option String} {sk : C.faest.SigningKey}
    (hsk : signingKeyFromEnv C.faest env = .ok sk) (htrusts : TrustsSigner C t.trusted env)
    {seed : Bytes 32} (hseed : attesterSeedFromEnv t.args.seed = .ok seed) {now : Int}
    (hexp : t.policy.isExpired now = false)
    (hprofile : t.policy.evidenceProfile = t.backend.profile) :
    ∃ s, Trace (Operator.step fmt) .init (signedRun t env ++ [(.finish 0 now, .started
      (.ok ⟨C.faest.signingKeyFromSeed seed, t.args.authTtlSecs, t.backend, t.policy⟩))]) s := by
  obtain ⟨s, htrace, hstarts, hsidecar, -⟩ := signedRun_trace hloaded hsk
  have hpending : s.starts 0 = some t := by simp [hstarts]
  exact ⟨_, .snoc htrace (Operator.finish_started hpending hloaded
    (htrusts.accepts hcomplete hsk hsidecar) hseed hexp hprofile)⟩

/-! ## What is served -/

/--
**What an attester serves.** In every run, an attester that starts serves the policy it parsed from
the bytes of its first read: the policy is valid, it has not expired, and its profile is that of the
gate. If the variable names any key, these same bytes were signed before under one of the keys it
names, whatever happened to the files between the reads.
-/
theorem started_attester_loaded {h before after : OperatorHistory C} {s : Operator C} {task : Nat}
    {now : Int} {cfg : AttesterConfig C} (ht : Trace (Operator.step fmt) .init h s)
    (hu : PolicyUnforged fmt h)
    (hsplit : h = before ++ (.finish task now, .started (.ok cfg)) :: after) :
    ∃ args bytes, Begun before task args bytes ∧ fmt.fromSlice bytes = some cfg.policy ∧
      cfg.policy.Validated ∧ cfg.policy.isExpired now = false ∧
      parseGate args.gate = .ok cfg.backend ∧ cfg.policy.evidenceProfile = cfg.backend.profile ∧
      (namedKeys args.trustedPub ≠ [] → ∃ trusted, trustedPubsFromEnv C.faest args.trustedPub
        = .ok trusted ∧ ∃ vk ∈ trusted, SignedPolicy vk before bytes) := by
  obtain ⟨s₁, s₂, hbefore, hstep, -⟩ := Trace.split_iff.mp (hsplit ▸ ht)
  cases ht : s₁.starts task with
  | none => simp [Operator.step, ht] at hstep
  | some t =>
    obtain ⟨hloaded, hbegun⟩ := startsLoaded_trace hbefore task t ht
    have hfinish : t.finish fmt s₁.files now = .ok cfg := by
      simp only [Operator.step, ht, Option.some.injEq, Prod.mk.injEq,
        OperatorReply.started.injEq] at hstep
      exact hstep.2
    obtain ⟨hsidecar, ⟨hexp, hprofile⟩, seed, -, rfl⟩ := StartTask.finish_eq_ok.mp hfinish
    refine ⟨t.args, t.bytes, hbegun, hloaded.parsed, hloaded.valid, hexp, hloaded.gate, ?_, ?_⟩
    · rw [evidenceProfileForGate_of_parseGate hloaded.gate] at hprofile
      exact (Outcome.ok.inj hprofile).symm
    · intro hnamed
      refine ⟨t.trusted, hloaded.trusted, ?_⟩
      rcases hsidecar with hnone | hverifies
      · -- no key is trusted only if none is named
        have hkeys := trustedPubsFromEnv_eq_ok.mp hloaded.trusted
        rw [hnone] at hkeys
        exact absurd (List.forall₂_nil_right_iff.mp hkeys) hnamed
      · obtain ⟨vk, hvk, hverifies⟩ := hverifies.exists_key
        exact ⟨vk, hvk, hu before task now _ after s₁ t hsplit hbefore ht vk hvk hverifies⟩

theorem started_attester_loaded_sample :
    ∃ args bytes, Begun (signedRun cvmTask cvmSeed) 0 args bytes ∧
      cvmFormat.fromSlice bytes = some cvmPolicy ∧ (namedKeys args.trustedPub ≠ [] →
        ∃ trusted, trustedPubsFromEnv Crypto.sample.faest args.trustedPub = .ok trusted ∧
          ∃ vk ∈ trusted, SignedPolicy vk (signedRun cvmTask cvmSeed) bytes) := by
  have hexp : cvmTask.policy.isExpired 50 = false := by decide
  obtain ⟨s, ht⟩ := signedRun_started Faest.sample_complete cvmTask_loaded cvmSeed_signs
    cvmTask_trustsSigner (attesterSeedFromEnv_encode sampleSigningKey) hexp rfl
  obtain ⟨args, bytes, hbegun, hparsed, -, -, -, -, hsigned⟩ := started_attester_loaded ht
    (signedRun_unforged cvmTask_loaded cvmSeed_signs rfl rfl) rfl
  exact ⟨args, bytes, hbegun, hparsed, hsigned⟩

/-! ## Policies that are left alone -/

/-- The events sign no policy but others, with readable names. -/
def SignsOnlyOthers (path : FilePath) (h : OperatorHistory C) : Prop :=
  ∀ x ∈ h, ∀ task other seed, x.1 = .sign task other seed →
    other.Readable ∧ other ≠ path ∧ sidecarPath other ≠ path

/-- Nobody writes the file, unless as a sidecar. -/
def LeavesAlone (path : FilePath) (h : OperatorHistory C) : Prop :=
  ∀ x ∈ h, ∀ content, x.1 ≠ .write path content

/-- Writing the task's sidecar touches neither the policy nor its sidecar. -/
def SidecarTask.Elsewhere (path : FilePath) (t : SidecarTask) : Prop :=
  sidecarPath t.policyPath ≠ path ∧ sidecarPath t.policyPath ≠ sidecarPath path

/-- Every `policy sign` in flight writes elsewhere, but for those of some tasks. -/
def SignsElsewhere (path : FilePath) (exempt : Nat → Prop) (s : Operator C) : Prop :=
  ∀ task t, s.signs task = some t → ¬ exempt task → t.Elsewhere path

/-- The file keeps its content, if it is not written and no `policy sign` in flight writes it. -/
theorem Operator.files_step {s s' : Operator C} {e : OperatorEvent} {r : OperatorReply C}
    {path : FilePath} (hstep : Operator.step fmt s e = some (s', r))
    (hwrite : ∀ content, e ≠ .write path content)
    (hsidecar : ∀ task t, e = .writeSidecar task false → s.signs task = some t →
      sidecarPath t.policyPath ≠ path) : s'.files path = s.files path := by
  rcases Operator.step_cases hstep with ⟨p, content, rfl, -, rfl⟩ | ⟨_, _, _, _, _, -, -, -, rfl⟩ |
    ⟨_, _, _, -, -, -, rfl⟩ | ⟨-, rfl, -⟩ | ⟨task, fails, t, rfl, ht, -, rfl⟩ |
    ⟨_, _, _, -, -, -, rfl⟩
  · have hne : path ≠ p := fun heq => hwrite content (heq ▸ rfl)
    simp [hne]
  · rfl
  · rfl
  · rfl
  · cases fails with
    | true => rfl
    | false => simp [(hsidecar task t rfl ht).symm]
  · rfl

/-- Signing other policies leaves every `policy sign` in flight writing elsewhere. -/
theorem SignsElsewhere.step {path : FilePath} {exempt : Nat → Prop} {s s' : Operator C}
    {e : OperatorEvent} {r : OperatorReply C} (hpath : path.Readable)
    (hs : SignsElsewhere path exempt s)
    (hsign : ∀ task other seed, e = .sign task other seed →
      other.Readable ∧ other ≠ path ∧ sidecarPath other ≠ path)
    (hstep : Operator.step fmt s e = some (s', r)) : SignsElsewhere path exempt s' := by
  rcases Operator.step_cases hstep with ⟨_, _, rfl, -, rfl⟩ |
    ⟨task, other, seed, bytes, sidecar, rfl, -, -, rfl⟩ | ⟨_, _, _, rfl, -, -, rfl⟩ | ⟨-, rfl, -⟩ |
    ⟨task, _, _, rfl, -, -, rfl⟩ | ⟨_, _, _, rfl, -, -, rfl⟩
  · exact hs
  · intro task' t ht hexempt
    by_cases htask : task' = task
    · subst htask
      obtain rfl : ⟨other, sidecar⟩ = t := by simpa using ht
      obtain ⟨hreadable, hne, hsidecar⟩ := hsign task' other seed rfl
      exact ⟨hsidecar, fun hsame => hne (sidecarPath_injective hreadable hpath hsame)⟩
    · have hold : s.signs task' = some t := by simpa [htask] using ht
      exact hs task' t hold hexempt
  · exact hs
  · exact hs
  · intro task' t ht hexempt
    by_cases htask : task' = task
    · subst htask
      simp at ht
    · have hold : s.signs task' = some t := by simpa [htask] using ht
      exact hs task' t hold hexempt
  · exact hs

/-- A `policy sign` in flight stays in flight until it writes. -/
theorem Operator.signs_step {s s' : Operator C} {e : OperatorEvent} {r : OperatorReply C}
    {task : Nat} {t : SidecarTask} (hstep : Operator.step fmt s e = some (s', r))
    (ht : s.signs task = some t) (hwrite : ∀ fails, e ≠ .writeSidecar task fails) :
    s'.signs task = some t := by
  rcases Operator.step_cases hstep with ⟨_, _, -, -, rfl⟩ |
    ⟨task', _, _, _, _, rfl, -, -, rfl⟩ | ⟨_, _, _, -, -, -, rfl⟩ | ⟨-, rfl, -⟩ |
    ⟨task', fails, _, rfl, -, -, rfl⟩ | ⟨_, _, _, -, -, -, rfl⟩
  · exact ht
  · by_cases htask : task = task'
    · -- a number in use is not given out
      subst htask
      simp [Operator.step, ht] at hstep
    · simpa [htask] using ht
  · exact ht
  · exact ht
  · have htask : task ≠ task' := fun heq => hwrite fails (heq ▸ rfl)
    simpa [htask] using ht
  · exact ht

/-- An attester in flight stays in flight until it finishes. -/
theorem Operator.starts_step {s s' : Operator C} {e : OperatorEvent} {r : OperatorReply C}
    {task : Nat} {t : StartTask C} (hstep : Operator.step fmt s e = some (s', r))
    (ht : s.starts task = some t) (hfinish : ∀ now, e ≠ .finish task now) :
    s'.starts task = some t := by
  rcases Operator.step_cases hstep with ⟨_, _, -, -, rfl⟩ | ⟨_, _, _, _, _, -, -, -, rfl⟩ |
    ⟨task', _, _, rfl, -, -, rfl⟩ | ⟨-, rfl, -⟩ | ⟨_, _, _, -, -, -, rfl⟩ |
    ⟨task', now, _, rfl, -, -, rfl⟩
  · exact ht
  · exact ht
  · by_cases htask : task = task'
    · subst htask
      simp [Operator.step, ht] at hstep
    · simpa [htask] using ht
  · exact ht
  · exact ht
  · have htask : task ≠ task' := fun heq => hfinish now (heq ▸ rfl)
    simpa [htask] using ht

/-- The policy is in its file, and the `policy sign` of it is in flight. -/
structure Signing (path : FilePath) (bytes sidecar : List UInt8) (task : Nat) (s : Operator C) :
    Prop where
  policy : s.files path = some bytes
  pending : s.signs task = some ⟨path, sidecar⟩
  elsewhere : SignsElsewhere path (· = task) s

/-- The policy and the sidecar are in their files. -/
structure Kept (path : FilePath) (bytes sidecar : List UInt8) (s : Operator C) : Prop where
  policy : s.files path = some bytes
  sidecar : s.files (sidecarPath path) = some sidecar
  elsewhere : SignsElsewhere path (fun _ => False) s

theorem Signing.step {path : FilePath} {bytes sidecar : List UInt8} {task : Nat}
    {s s' : Operator C} {e : OperatorEvent} {r : OperatorReply C} (hpath : path.Readable)
    (hs : Signing path bytes sidecar task s)
    (hsign : ∀ task other seed, e = .sign task other seed →
      other.Readable ∧ other ≠ path ∧ sidecarPath other ≠ path)
    (hwrite : ∀ content, e ≠ .write path content) (htask : ∀ fails, e ≠ .writeSidecar task fails)
    (hstep : Operator.step fmt s e = some (s', r)) : Signing path bytes sidecar task s' where
  policy := by
    rw [Operator.files_step hstep hwrite, hs.policy]
    intro task' t he ht
    have hne : task' ≠ task := fun heq => htask false (heq ▸ he)
    exact (hs.elsewhere task' t ht hne).1
  pending := Operator.signs_step hstep hs.pending htask
  elsewhere := hs.elsewhere.step hpath hsign hstep

/-- The sidecar is written. -/
theorem Signing.written {path : FilePath} {bytes sidecar : List UInt8} {task : Nat}
    {s s' : Operator C} {r : OperatorReply C} (hs : Signing path bytes sidecar task s)
    (hstep : Operator.step fmt s (.writeSidecar task false) = some (s', r)) :
    Kept path bytes sidecar s' := by
  simp only [Operator.step, hs.pending, Bool.false_eq_true, if_false, Option.some.injEq,
    Prod.mk.injEq] at hstep
  obtain ⟨rfl, -⟩ := hstep
  refine ⟨?_, by simp, fun task' t ht _ => ?_⟩
  · simpa [(sidecarPath_ne path).symm] using hs.policy
  · by_cases htask : task' = task
    · subst htask
      simp at ht
    · have hold : s.signs task' = some t := by simpa [htask] using ht
      exact hs.elsewhere task' t hold htask

theorem Kept.step {path : FilePath} {bytes sidecar : List UInt8} {s s' : Operator C}
    {e : OperatorEvent} {r : OperatorReply C} (hpath : path.Readable)
    (hs : Kept path bytes sidecar s)
    (hsign : ∀ task other seed, e = .sign task other seed →
      other.Readable ∧ other ≠ path ∧ sidecarPath other ≠ path)
    (hwrite : ∀ content, e ≠ .write path content)
    (hwrite' : ∀ content, e ≠ .write (sidecarPath path) content)
    (hstep : Operator.step fmt s e = some (s', r)) : Kept path bytes sidecar s' where
  policy := (Operator.files_step hstep hwrite fun task t _ ht =>
    (hs.elsewhere task t ht not_false).1).trans hs.policy
  sidecar := (Operator.files_step hstep hwrite' fun task t _ ht =>
    (hs.elsewhere task t ht not_false).2).trans hs.sidecar
  elsewhere := hs.elsewhere.step hpath hsign hstep

/-- A policy that has just been signed. -/
theorem SignsElsewhere.signing {path : FilePath} {bytes sidecar : List UInt8} {task : Nat}
    {s : Operator C} (hs : SignsElsewhere path (fun _ => False) s)
    (hfile : s.files path = some bytes) :
    Signing path bytes sidecar task
      { s with signs := Function.update s.signs task (some ⟨path, sidecar⟩) } where
  policy := hfile
  pending := by simp
  elsewhere task' t ht hne := by
    have hold : s.signs task' = some t := by simpa [hne] using ht
    exact hs task' t hold not_false

/-- What is left alone is kept. -/
theorem Kept.run {path : FilePath} {bytes sidecar : List UInt8} {s s' : Operator C}
    {h : OperatorHistory C} (hpath : path.Readable) (hs : Kept path bytes sidecar s)
    (ht : Trace (Operator.step fmt) s h s') (hothers : SignsOnlyOthers path h)
    (hpolicy : LeavesAlone path h) (hsidecar : LeavesAlone (sidecarPath path) h) :
    Kept path bytes sidecar s' :=
  Trace.preserves (Q := fun x => (∀ task other seed, x.1 = .sign task other seed →
      other.Readable ∧ other ≠ path ∧ sidecarPath other ≠ path) ∧
      (∀ content, x.1 ≠ .write path content) ∧ ∀ content, x.1 ≠ .write (sidecarPath path) content)
    (fun _ _ _ _ hs hx hstep => hs.step hpath hx.1 hx.2.1 hx.2.2 hstep) hs ht
    fun x hx => ⟨hothers x hx, hpolicy x hx, hsidecar x hx⟩

/--
**A signed policy starts an attester.** A policy was signed and its sidecar written, and nobody has
written the two files since. Then an attester that trusts the signer starts with this policy until
it expires, at any gate of its profile. Before and meanwhile other policies with readable names may
be signed, and attesters started, in any order.
-/
theorem signed_policy_starts (hcomplete : C.faest.Complete) {path : FilePath}
    (hpath : path.Readable) {h₁ h₂ h₃ h₄ : OperatorHistory C} {s : Operator C}
    {signer task : Nat} {signingSeed : Option String} {bytes : List UInt8} {args : AttesterArgs}
    {r r' : OperatorReply C}
    (ht : Trace (Operator.step fmt) .init
      (h₁ ++ (.sign signer path signingSeed, .read (.ok bytes)) ::
        (h₂ ++ (.writeSidecar signer false, r) :: (h₃ ++ (.start task args, r') :: h₄))) s)
    (hothers : SignsOnlyOthers path (h₁ ++ (h₂ ++ (h₃ ++ h₄))))
    (hpolicy : LeavesAlone path (h₂ ++ (h₃ ++ h₄)))
    (hsidecar : LeavesAlone (sidecarPath path) (h₃ ++ h₄))
    (hfirst : ∀ x ∈ h₂, ∀ fails, x.1 ≠ .writeSidecar signer fails)
    (hlast : ∀ x ∈ h₄, ∀ now, x.1 ≠ .finish task now) (hargs : args.policy = path)
    {backend : Backend} (hgate : parseGate args.gate = .ok backend)
    {trusted : List C.faest.VerificationKey}
    (htrusted : trustedPubsFromEnv C.faest args.trustedPub = .ok trusted)
    (htrusts : TrustsSigner C trusted signingSeed) {seed : Bytes 32}
    (hseed : attesterSeedFromEnv args.seed = .ok seed) :
    ∃ policy, fmt.fromSlice bytes = some policy ∧ policy.Validated ∧
      ∀ now, policy.isExpired now = false → policy.evidenceProfile = backend.profile →
        ∃ s', Operator.step fmt s (.finish task now) = some (s',
          .started (.ok ⟨C.faest.signingKeyFromSeed seed, args.authTtlSecs, backend, policy⟩)) := by
  obtain ⟨s₁, s₂, ht₁, hsign, ht₂⟩ := Trace.split_iff.mp ht
  obtain ⟨s₃, s₄, ht₂, hwrite, ht₃⟩ := Trace.split_iff.mp ht₂
  obtain ⟨s₅, s₆, ht₃, hstart, ht₄⟩ := Trace.split_iff.mp ht₃
  simp only [SignsOnlyOthers, LeavesAlone, List.forall_mem_append] at hothers hpolicy hsidecar
  obtain ⟨hothers₁, hothers₂, hothers₃, hothers₄⟩ := hothers
  obtain ⟨hpolicy₂, hpolicy₃, hpolicy₄⟩ := hpolicy
  obtain ⟨hsidecar₃, hsidecar₄⟩ := hsidecar
  -- before the policy is signed, every other `policy sign` writes elsewhere
  have helsewhere : SignsElsewhere path (fun _ => False) s₁ :=
    Trace.preserves (fun _ _ _ _ hs hx hstep => SignsElsewhere.step hpath hs hx hstep)
      (fun _ _ hnone => by cases hnone) ht₁ hothers₁
  obtain ⟨hfree, sidecar, hsigned, rfl⟩ := Operator.step_sign_eq.mp hsign
  obtain ⟨hfile, ⟨policy, hparsed, hvalid⟩, sk, hsk, rfl⟩ := signPolicy_eq_ok.mp hsigned
  have hsigning : Signing path bytes _ signer _ :=
    Trace.preserves (Q := fun x => (∀ task other seed, x.1 = .sign task other seed →
        other.Readable ∧ other ≠ path ∧ sidecarPath other ≠ path) ∧
        (∀ content, x.1 ≠ .write path content) ∧ ∀ fails, x.1 ≠ .writeSidecar signer fails)
      (fun _ _ _ _ hs hx hstep => Signing.step hpath hs hx.1 hx.2.1 hx.2.2 hstep)
      (helsewhere.signing hfile) ht₂ fun x hx => ⟨hothers₂ x hx, hpolicy₂ x hx, hfirst x hx⟩
  -- from the write on, both files are there
  have hkept₄ := hsigning.written hwrite
  have hkept₅ := hkept₄.run hpath ht₃ hothers₃ hpolicy₃ hsidecar₃
  let t : StartTask C := ⟨args, backend, trusted, bytes, policy⟩
  have hloaded : t.Loaded fmt := ⟨hgate, htrusted, hparsed, hvalid⟩
  have hfile₅ : s₅.files t.args.policy = some t.bytes := hargs ▸ hkept₅.policy
  have hkept₆ : Kept path bytes _ s₆ :=
    hkept₅.step hpath (by simp) (by simp) (by simp) hstart
  have hpending₆ : s₆.starts task = some t := by
    cases hnone : s₅.starts task with
    | some u => simp [Operator.step, hnone] at hstart
    | none =>
      rw [show args = t.args from rfl, Operator.step_start_eq hnone hloaded hfile₅] at hstart
      obtain ⟨rfl, -⟩ := Prod.mk.inj (Option.some.inj hstart)
      simp
  have hpending : s.starts task = some t :=
    Trace.preserves (I := fun s => s.starts task = some t)
      (fun _ _ _ _ hs hx hstep => Operator.starts_step hstep hs hx) hpending₆ ht₄ hlast
  have hkept := hkept₆.run hpath ht₄ hothers₄ hpolicy₄ hsidecar₄
  have haccepts := htrusts.accepts hcomplete hsk hkept.sidecar
  rw [← hargs] at haccepts
  exact ⟨policy, hparsed, hvalid, fun now hexp hprofile =>
    ⟨_, Operator.finish_started hpending hloaded haccepts hseed hexp hprofile⟩⟩

/-- Another policy, for another attester. -/
def otherTask : StartTask Crypto.sample where
  args := { cvmArgs with policy := ⟨[], some (utf8 "other.json")⟩ }
  backend := .uq
  trusted := [cvmPub]
  bytes := [8]
  policy := cvmPolicy

theorem otherTask_loaded : otherTask.Loaded cvmFormat :=
  ⟨cvmTask_loaded.gate, cvmTask_loaded.trusted, cvmTask_loaded.parsed, cvmTask_loaded.valid⟩

/-- The other policy is signed first, and its sidecar is written last. -/
def busySigned : OperatorHistory Crypto.sample :=
  [(.write cvmPath (some [7]), .written),
    (.write otherTask.args.policy (some [8]), .written),
    (.sign 1 otherTask.args.policy cvmSeed, .read (.ok [8]))]

/-- The two policies are signed and read at the same time. -/
def busyRun : OperatorHistory Crypto.sample :=
  busySigned ++ (.sign 0 cvmPath cvmSeed, .read (.ok [7])) ::
    ([(.start 1 otherTask.args, .read (.ok [8]))] ++
      (.writeSidecar 0 false, .signed (.ok (sidecarPath cvmPath))) ::
        ([(.writeSidecar 1 false, .signed (.ok (sidecarPath otherTask.args.policy)))] ++
          (.start 0 cvmArgs, .read (.ok [7])) ::
            [(.finish 1 50, .started (.ok ⟨sampleSigningKey, 60, .uq, cvmPolicy⟩))]))

theorem otherPath_ne : otherTask.args.policy ≠ cvmPath ∧
    sidecarPath otherTask.args.policy ≠ cvmPath ∧ sidecarPath cvmPath ≠ otherTask.args.policy ∧
    sidecarPath otherTask.args.policy ≠ sidecarPath cvmPath := by
  decide

/-- The sidecar of the signer for a policy. -/
def sampleSidecar (bytes : List UInt8) : List UInt8 :=
  sidecarOf Crypto.sample.faest sampleSigningKey bytes

/-- The files with the two policies. -/
def busyFiles : Files :=
  Function.update (Function.update (fun _ => none) cvmPath (some [7])) otherTask.args.policy
    (some [8])

theorem busyFiles_cvm : busyFiles cvmPath = some [7] := by
  simp [busyFiles, otherPath_ne.1.symm]

theorem busyFiles_other : busyFiles otherTask.args.policy = some [8] := by
  simp [busyFiles]

/-- The two sidecars that are to be written. -/
def busySigns : Nat → Option SidecarTask :=
  Function.update (Function.update (fun _ => none) 1
    (some ⟨otherTask.args.policy, sampleSidecar [8]⟩)) 0 (some ⟨cvmPath, sampleSidecar [7]⟩)

/-- Both policies are signed, and no sidecar is there yet. -/
theorem busySigned_trace : Trace (Operator.step cvmFormat) .init
    (busySigned ++ [(.sign 0 cvmPath cvmSeed, .read (.ok [7]))])
      (⟨busyFiles, busySigns, fun _ => none⟩ : Operator Crypto.sample) := by
  have hother : Operator.step cvmFormat ⟨busyFiles, fun _ => none, fun _ => none⟩
      (.sign 1 otherTask.args.policy cvmSeed) = some (⟨busyFiles, _, fun _ => none⟩,
        .read (.ok [8])) :=
    Operator.step_sign_loaded rfl otherTask_loaded busyFiles_other cvmSeed_signs
  exact .snoc (.snoc (.snoc (.snoc .init rfl) rfl) hother)
    (Operator.step_sign_loaded (t := cvmTask) rfl cvmTask_loaded busyFiles_cvm cvmSeed_signs)

theorem busyRun_trace : ∃ s, Trace (Operator.step cvmFormat) .init busyRun s := by
  let starts₁ : Nat → Option (StartTask Crypto.sample) := Function.update (fun _ => none) 1
    (some otherTask)
  let files₀ := Function.update busyFiles (sidecarPath cvmPath) (some (sampleSidecar [7]))
  let files₁ := Function.update files₀ (sidecarPath otherTask.args.policy)
    (some (sampleSidecar [8]))
  let signs₀ := Function.update busySigns 0 none
  let signs₁ := Function.update signs₀ 1 none
  have hstart₁ : Operator.step cvmFormat ⟨busyFiles, busySigns, fun _ => none⟩
      (.start 1 otherTask.args) = some (⟨busyFiles, busySigns, starts₁⟩, .read (.ok [8])) :=
    Operator.step_start_eq rfl otherTask_loaded busyFiles_other
  have hwrite₀ : Operator.step cvmFormat ⟨busyFiles, busySigns, starts₁⟩ (.writeSidecar 0 false)
      = some (⟨files₀, signs₀, starts₁⟩, .signed (.ok (sidecarPath cvmPath))) :=
    Operator.step_writeSidecar_eq (by simp [busySigns])
  have hwrite₁ : Operator.step cvmFormat ⟨files₀, signs₀, starts₁⟩ (.writeSidecar 1 false)
      = some (⟨files₁, signs₁, starts₁⟩, .signed (.ok (sidecarPath otherTask.args.policy))) :=
    Operator.step_writeSidecar_eq (by simp [signs₀, busySigns])
  have hcvm : files₁ cvmPath = some [7] := by
    simp [files₁, files₀, otherPath_ne.2.1.symm, (sidecarPath_ne cvmPath).symm, busyFiles_cvm]
  have hstart₀ : Operator.step cvmFormat ⟨files₁, signs₁, starts₁⟩ (.start 0 cvmArgs)
      = some (⟨files₁, signs₁, Function.update starts₁ 0 (some cvmTask)⟩, .read (.ok [7])) :=
    Operator.step_start_eq (t := cvmTask) rfl cvmTask_loaded hcvm
  have haccepts : [cvmPub] = [] ∨ SidecarVerifies Crypto.sample.faest files₁
      otherTask.args.policy [cvmPub] [8] :=
    cvmTask_trustsSigner.accepts Faest.sample_complete cvmSeed_signs (Function.update_self ..)
  have hpending : Function.update starts₁ 0 (some cvmTask) 1 = some otherTask := by simp [starts₁]
  have hexpired : cvmPolicy.isExpired 50 = false := by decide
  let s : Operator Crypto.sample := ⟨files₁, signs₁, Function.update starts₁ 0 (some cvmTask)⟩
  obtain ⟨s', hfinish⟩ : ∃ s', Operator.step cvmFormat s (.finish 1 50)
      = some (s', .started (.ok ⟨sampleSigningKey, 60, .uq, cvmPolicy⟩)) :=
    ⟨_, Operator.finish_started (s := s) hpending otherTask_loaded haccepts
      (attesterSeedFromEnv_encode sampleSigningKey) hexpired rfl⟩
  exact ⟨s', .snoc (.snoc (.snoc (.snoc (.snoc busySigned_trace hstart₁) hwrite₀) hwrite₁) hstart₀)
    hfinish⟩

theorem signed_policy_starts_sample :
    ∃ s s', Trace (Operator.step cvmFormat) .init busyRun s ∧
      Operator.step cvmFormat s (.finish 0 50)
        = some (s', .started (.ok ⟨sampleSigningKey, 60, .uq, cvmPolicy⟩)) := by
  obtain ⟨s, ht⟩ := busyRun_trace
  obtain ⟨hne, hne₁, hne₂, hne₃⟩ := otherPath_ne
  have hreadable : cvmPath.Readable := ⟨"policy.json", rfl⟩
  have hother : otherTask.args.policy.Readable := ⟨"other.json", rfl⟩
  obtain ⟨policy, hparsed, -, hstart⟩ := signed_policy_starts Faest.sample_complete hreadable ht
    (by simp [SignsOnlyOthers, busySigned, hother, hne, hne₁]) (by simp [LeavesAlone])
    (by simp [LeavesAlone]) (by simp) (by simp) rfl rfl cvmTask_loaded.trusted
    cvmTask_trustsSigner (attesterSeedFromEnv_encode sampleSigningKey)
  obtain rfl : policy = cvmPolicy := (Option.some.inj hparsed).symm
  obtain ⟨s', hs'⟩ := hstart 50 (by decide) rfl
  exact ⟨s, s', ht, hs'⟩

/-! ## Policies that are put back -/

/-- The `policy sign` has made this sidecar: it is what it was to write after its step. -/
def MadeSidecar (fmt : PolicyFormat) (h : OperatorHistory C) (signer : Nat) (path : FilePath)
    (seed : Option String) (bytes sidecar : List UInt8) : Prop :=
  ∃ before after s, h = before ++ (.sign signer path seed, .read (.ok bytes)) :: after ∧
    Trace (Operator.step fmt) .init (before ++ [(.sign signer path seed, .read (.ok bytes))]) s ∧
    s.signs signer = some ⟨path, sidecar⟩

/-- Wherever the run says that the `policy sign` wrote, it left this in the sidecar. -/
def LeavesSidecar (fmt : PolicyFormat) (h : OperatorHistory C) (signer : Nat) (path : FilePath)
    (seed : Option String) (bytes sidecar : List UInt8) : Prop :=
  ∀ h₁ h₂ h₃ r s, h = h₁ ++ (.sign signer path seed, .read (.ok bytes)) ::
      (h₂ ++ (.writeSidecar signer false, r) :: h₃) →
    (∀ x ∈ h₂, ∀ fails, x.1 ≠ .writeSidecar signer fails) →
    Trace (Operator.step fmt) .init (h₁ ++ (.sign signer path seed, .read (.ok bytes)) ::
      (h₂ ++ [(.writeSidecar signer false, r)])) s → s.files (sidecarPath path) = some sidecar

/-- A `policy sign` in flight leaves what it has signed. -/
theorem Operator.pending_written {s s' s'' : Operator C} {h : OperatorHistory C} {task : Nat}
    {t : SidecarTask} {r : OperatorReply C} (ht : s.signs task = some t)
    (hrun : Trace (Operator.step fmt) s h s')
    (hfirst : ∀ x ∈ h, ∀ fails, x.1 ≠ .writeSidecar task fails)
    (hwrite : Operator.step fmt s' (.writeSidecar task false) = some (s'', r)) :
    s''.files (sidecarPath t.policyPath) = some t.sidecar := by
  have hpending : s'.signs task = some t :=
    Trace.preserves (I := fun s => s.signs task = some t)
      (fun _ _ _ _ hs hx hstep => Operator.signs_step hstep hs hx) ht hrun hfirst
  simp only [Operator.step, hpending, Bool.false_eq_true, if_false, Option.some.injEq,
    Prod.mk.injEq] at hwrite
  obtain ⟨rfl, -⟩ := hwrite
  exact Function.update_self ..

theorem leavesSidecar_of_key {h : OperatorHistory C} {signer : Nat} {path : FilePath}
    {seed : Option String} {bytes : List UInt8} {sk : C.faest.SigningKey}
    (hsk : signingKeyFromEnv C.faest seed = .ok sk) :
    LeavesSidecar fmt h signer path seed bytes (sidecarOf C.faest sk bytes) := by
  intro h₁ h₂ h₃ r s _ hfirst ht
  obtain ⟨s₁, s₂, -, hsign, ht₂⟩ := Trace.split_iff.mp ht
  obtain ⟨s₃, s₄, hrun, hwrite, hnil⟩ := Trace.split_iff.mp ht₂
  obtain ⟨-, sidecar, hread, rfl⟩ := Operator.step_sign_eq.mp hsign
  obtain ⟨-, -, sk', hsk', rfl⟩ := signPolicy_eq_ok.mp hread
  obtain rfl : sk' = sk := Outcome.ok.inj (hsk'.symm.trans hsk)
  rw [Trace.nil_iff.mp hnil]
  exact Operator.pending_written (t := ⟨path, _⟩) (Function.update_self ..) hrun hfirst hwrite

/--
**A signature is for good.** In every reachable state, a policy that was signed at any time before
can be put back: once its bytes and the sidecar that this signing made are in the files, an attester
that trusts the signer starts with it until it expires, whatever policies were signed since.
-/
theorem signed_policy_restarts (hcomplete : C.faest.Complete) {h : OperatorHistory C}
    {s : Operator C} (ht : Trace (Operator.step fmt) .init h s) {signer : Nat} {path : FilePath}
    {signingSeed : Option String} {bytes : List UInt8}
    (hsigned : (.sign signer path signingSeed, .read (.ok bytes)) ∈ h) {task : Nat}
    (hfree : s.starts task = none) {args : AttesterArgs} {backend : Backend}
    (hgate : parseGate args.gate = .ok backend) {trusted : List C.faest.VerificationKey}
    (htrusted : trustedPubsFromEnv C.faest args.trustedPub = .ok trusted)
    (htrusts : TrustsSigner C trusted signingSeed) {seed : Bytes 32}
    (hseed : attesterSeedFromEnv args.seed = .ok seed) :
    ∃ policy sk, fmt.fromSlice bytes = some policy ∧ policy.Validated ∧
      signingKeyFromEnv C.faest signingSeed = .ok sk ∧
      MadeSidecar fmt h signer path signingSeed bytes (sidecarOf C.faest sk bytes) ∧
      LeavesSidecar fmt h signer path signingSeed bytes (sidecarOf C.faest sk bytes) ∧
      ∀ now, policy.isExpired now = false → policy.evidenceProfile = backend.profile →
        ∃ s', Trace (Operator.step fmt) s [(.write args.policy (some bytes), .written),
          (.write (sidecarPath args.policy) (some (sidecarOf C.faest sk bytes)), .written),
          (.start task args, .read (.ok bytes)), (.finish task now, .started (.ok
            ⟨C.faest.signingKeyFromSeed seed, args.authTtlSecs, backend, policy⟩))] s' := by
  obtain ⟨before, after, rfl⟩ := List.append_of_mem hsigned
  obtain ⟨s₁, s₂, hbefore, hsign, -⟩ := Trace.split_iff.mp ht
  obtain ⟨-, sidecar, hread, rfl⟩ := Operator.step_sign_eq.mp hsign
  obtain ⟨-, ⟨policy, hparsed, hvalid⟩, sk, hsk, rfl⟩ := signPolicy_eq_ok.mp hread
  have hmade : MadeSidecar fmt (before ++ (.sign signer path signingSeed, .read (.ok bytes)) ::
      after) signer path signingSeed bytes (sidecarOf C.faest sk bytes) :=
    ⟨before, after, _, rfl, hbefore.snoc hsign, Function.update_self ..⟩
  refine ⟨policy, sk, hparsed, hvalid, hsk, hmade, leavesSidecar_of_key hsk,
    fun now hexp hprofile => ?_⟩
  let t : StartTask C := ⟨args, backend, trusted, bytes, policy⟩
  have hloaded : t.Loaded fmt := ⟨hgate, htrusted, hparsed, hvalid⟩
  let files := Function.update (Function.update s.files args.policy (some bytes))
    (sidecarPath args.policy) (some (sidecarOf C.faest sk bytes))
  have hfile : files args.policy = some bytes := by
    simp [files, (sidecarPath_ne args.policy).symm]
  have haccepts : trusted = [] ∨ SidecarVerifies C.faest files args.policy trusted bytes :=
    htrusts.accepts hcomplete hsk (Function.update_self _ _ _)
  have hstart := Operator.step_start_eq (s := { s with files }) hfree hloaded hfile
  have hfinish := Operator.finish_started
    (s := { s with files, starts := Function.update s.starts task (some t) })
    (Function.update_self task (some t) s.starts) hloaded haccepts hseed hexp hprofile
  exact ⟨_, .snoc (.snoc (.snoc (.snoc .init rfl) rfl) hstart) hfinish⟩

/-- After the policy was signed, its file was given another one, which was signed too. -/
def resignedRun : OperatorHistory Crypto.sample :=
  signedRun cvmTask cvmSeed ++ [(.write cvmPath (some [9]), .written),
    (.sign 1 cvmPath cvmSeed, .read (.ok [9])),
    (.writeSidecar 1 false, .signed (.ok (sidecarPath cvmPath)))]

theorem resignedRun_trace :
    ∃ s, Trace (Operator.step cvmFormat) .init resignedRun s ∧ s.starts 1 = none := by
  obtain ⟨s, ht, hstarts, -, hsigns⟩ := signedRun_trace cvmTask_loaded cvmSeed_signs
  let t : StartTask Crypto.sample := { cvmTask with bytes := [9] }
  have hloaded : t.Loaded cvmFormat :=
    ⟨cvmTask_loaded.gate, cvmTask_loaded.trusted, cvmTask_loaded.parsed, cvmTask_loaded.valid⟩
  let files := Function.update s.files cvmPath (some [9])
  have hfree : ({ s with files } : Operator Crypto.sample).signs 1 = none := hsigns 1
  have hfile : files t.args.policy = some t.bytes := Function.update_self cvmPath _ s.files
  have hsign := Operator.step_sign_loaded hfree hloaded hfile cvmSeed_signs
  refine ⟨_, .snoc (.snoc (.snoc ht rfl) hsign)
    (Operator.step_writeSidecar_eq (Function.update_self 1 _ s.signs)), ?_⟩
  exact congrFun hstarts 1

theorem signed_policy_restarts_sample :
    ∃ s s', Trace (Operator.step cvmFormat) .init resignedRun s ∧
      MadeSidecar cvmFormat resignedRun 0 cvmPath cvmSeed [7] (sampleSidecar [7]) ∧
      Trace (Operator.step cvmFormat) s [(.write cvmPath (some [7]), .written),
        (.write (sidecarPath cvmPath) (some (sampleSidecar [7])), .written),
        (.start 1 cvmArgs, .read (.ok [7])),
        (.finish 1 50, .started (.ok ⟨sampleSigningKey, 60, .uq, cvmPolicy⟩))] s' := by
  obtain ⟨s, ht, hfree⟩ := resignedRun_trace
  have hsigned : (OperatorEvent.sign 0 cvmPath cvmSeed, OperatorReply.read (.ok [7]))
      ∈ resignedRun := by
    simp [resignedRun, signedRun, cvmTask, cvmArgs]
  obtain ⟨policy, sk, hparsed, -, hsk, hmade, -, hstart⟩ := signed_policy_restarts
    Faest.sample_complete ht hsigned hfree rfl cvmTask_loaded.trusted cvmTask_trustsSigner
    (attesterSeedFromEnv_encode sampleSigningKey)
  obtain rfl : policy = cvmPolicy := (Option.some.inj hparsed).symm
  obtain rfl : sk = sampleSigningKey := Outcome.ok.inj (hsk.symm.trans cvmSeed_signs)
  obtain ⟨s', hs'⟩ := hstart 50 (by decide) rfl
  exact ⟨s, s', ht, hmade, hs'⟩

end EatPass
