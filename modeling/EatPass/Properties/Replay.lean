import EatPass.Properties.Issuance

/-!
# One piece of evidence, one batch

Evidence can be shown again, at another time and with another `max_batch`. Every gate ties what it
accepts to one channel binding, each in its own place: in the nonce of a token, in the `value_x` of
a verdict, or inside `unified_quote`. The policy and the handler only pass the binding on, and it
commits to the batch, so showing evidence again never gets a second batch signed.

* `Backend.gate_bindsOnce` — each of the seven gates accepts evidence for one binding at most
* `one_batch_per_evidence` — what this means for the attester's answers and for the issuer's
-/

namespace EatPass

open Infra

/-! ## Gates -/

/-- Whenever it is asked, the verifier accepts one piece of evidence for one binding at most. -/
def BindsOnce (verifier : Int → AttestationVerifier) : Prop :=
  ∀ {t t' eat b b' m m'}, (verifier t).verify eat b = .ok m → (verifier t').verify eat b' = .ok m' →
    b = b'

/-- A bundle is verified for one binding at most. -/
def MobileLibrary.BindsOnce (lib : MobileLibrary) : Prop :=
  ∀ {t t' bundle b b' v v'}, lib.verifyBundle t bundle b = .ok v → v.verdict = "verified" →
    lib.verifyBundle t' bundle b' = .ok v' → v'.verdict = "verified" → b = b'

def MacOsLibrary.BindsOnce (lib : MacOsLibrary) : Prop :=
  ∀ {t t' bundle b b' v v'}, lib.verifyBundle t bundle b = .ok v → v.verdict = "verified" →
    lib.verifyBundle t' bundle b' = .ok v' → v'.verdict = "verified" → b = b'

/-- The same for a TPM bundle, under any options. -/
def TpmLibrary.BindsOnce (lib : TpmLibrary) : Prop :=
  ∀ {t t' bundle b b' options v v'},
    lib.verifyBundleWithOptions t bundle b options = .ok v → v.verdict = "verified" →
    lib.verifyBundleWithOptions t' bundle b' options = .ok v' → v'.verdict = "verified" → b = b'

/-- The `value_x` of a verdict depends on the evidence alone, not on when it is verified. -/
structure AzureLibrary.BindsOnce (lib : AzureLibrary) : Prop where
  bundle : ∀ {t t' bundle v v'}, lib.verifyBundle t bundle = .ok v →
    lib.verifyBundle t' bundle = .ok v' → v.valueX = v'.valueX
  cert : ∀ {t t' cert v v'}, lib.verifyAttestedCert t cert = .ok v →
    lib.verifyAttestedCert t' cert = .ok v' → v.valueX = v'.valueX

/-- What the gates rely on. Nothing is needed of `EatToken`, whose nonce is read from the bytes. -/
structure UnifiedQuote.BindsOnce (uq : UnifiedQuote) : Prop where
  azure : uq.azure.BindsOnce
  android : uq.android.BindsOnce
  ios : uq.ios.BindsOnce
  tpm : uq.tpm.BindsOnce
  macOs : uq.macOs.BindsOnce

theorem uqVerifier_bindsOnce (lib : EatLibrary) : BindsOnce (uqVerifier lib) := by
  intro t t' eat b b' m m' h h'
  obtain ⟨token, _, htoken, rfl, _⟩ := uqVerifier_eq_ok.mp h
  obtain ⟨token', _, htoken', rfl, _⟩ := uqVerifier_eq_ok.mp h'
  rw [htoken] at htoken'
  cases htoken'
  rfl

/-- Two verdicts with the same `value_x` are for the same binding. -/
theorem binding_eq_of_valueX {x x' : Option String} {bound bound' : String} {b b' : Bytes 32}
    (hx : x = x') (h : x = some bound) (h' : x' = some bound')
    (hd : Hex.decode bound.toList = some b.val) (hd' : Hex.decode bound'.toList = some b'.val) :
    b = b' := by
  subst hx
  rw [h] at h'
  cases h'
  rw [hd] at hd'
  exact Subtype.ext (Option.some.inj hd')

theorem azureUqVerifier_bindsOnce {lib : AzureLibrary} (hlib : lib.BindsOnce) :
    BindsOnce (azureUqVerifier lib) := by
  intro t t' eat b b' m m' h h'
  obtain ⟨bundle, verdict, bound, hbundle, hverdict, hx, hd⟩ := azureUqVerifier_ok h
  obtain ⟨bundle', verdict', bound', hbundle', hverdict', hx', hd'⟩ := azureUqVerifier_ok h'
  rw [hbundle] at hbundle'
  cases hbundle'
  exact binding_eq_of_valueX (hlib.bundle hverdict hverdict') hx hx' hd hd'

theorem azureTlsVerifier_bindsOnce {lib : AzureLibrary} (hlib : lib.BindsOnce) :
    BindsOnce (azureTlsVerifier lib) := by
  intro t t' eat b b' m m' h h'
  obtain ⟨verdict, bound, hverdict, hx, hd⟩ := azureTlsVerifier_ok h
  obtain ⟨verdict', bound', hverdict', hx', hd'⟩ := azureTlsVerifier_ok h'
  exact binding_eq_of_valueX (hlib.cert hverdict hverdict') hx hx' hd hd'

theorem mobileVerifier_bindsOnce {lib : MobileLibrary} (hlib : lib.BindsOnce) (what : String) :
    BindsOnce (mobileVerifier what lib) := by
  intro t t' eat b b' m m' h h'
  obtain ⟨bundle, verdict, hbundle, hverdict, hverified⟩ := mobileVerifier_ok h
  obtain ⟨bundle', verdict', hbundle', hverdict', hverified'⟩ := mobileVerifier_ok h'
  rw [hbundle] at hbundle'
  cases hbundle'
  exact hlib hverdict hverified hverdict' hverified'

theorem macOsAppAttestVerifier_bindsOnce {lib : MacOsLibrary} (hlib : lib.BindsOnce) :
    BindsOnce (macOsAppAttestVerifier lib) := by
  intro t t' eat b b' m m' h h'
  obtain ⟨bundle, verdict, hbundle, hverdict, hverified⟩ := macOsAppAttestVerifier_ok h
  obtain ⟨bundle', verdict', hbundle', hverdict', hverified'⟩ := macOsAppAttestVerifier_ok h'
  rw [hbundle] at hbundle'
  cases hbundle'
  exact hlib hverdict hverified hverdict' hverified'

theorem DesktopTpmVerifier.bindsOnce {lib : TpmLibrary} (hlib : lib.BindsOnce)
    (v : DesktopTpmVerifier) : BindsOnce (v.verifier lib) := by
  intro t t' eat b b' m m' h h'
  obtain ⟨bundle, verdict, hbundle, hverdict, haccepts⟩ := verify_eq_ok.mp h
  obtain ⟨bundle', verdict', hbundle', hverdict', haccepts'⟩ := verify_eq_ok.mp h'
  rw [hbundle] at hbundle'
  cases hbundle'
  exact hlib hverdict haccepts.verified hverdict' haccepts'.verified

/-- **Each of the seven gates, under any policy, accepts evidence for one binding at most.** -/
theorem Backend.gate_bindsOnce {uq : UnifiedQuote} (huq : uq.BindsOnce) (backend : Backend)
    (p : VerificationPolicy) : BindsOnce (backend.gate uq p) := by
  have hinner : BindsOnce fun t => backend.verifier uq p t := by
    cases backend with
    | uq => exact uqVerifier_bindsOnce uq.eat
    | azure => exact azureUqVerifier_bindsOnce huq.azure
    | azureTls => exact azureTlsVerifier_bindsOnce huq.azure
    | androidKey => exact mobileVerifier_bindsOnce huq.android _
    | iosAppAttest => exact mobileVerifier_bindsOnce huq.ios _
    | desktopTpm => exact DesktopTpmVerifier.bindsOnce huq.tpm _
    | macOsAppAttest => exact macOsAppAttestVerifier_bindsOnce huq.macOs
  -- the policy can only refuse more
  intro t t' eat b b' m m' h h'
  exact hinner (PolicyGated.verify_eq_ok.mp h).1 (PolicyGated.verify_eq_ok.mp h').1

/-! ## The attester and the issuer -/

variable {C : Crypto}

/-- What the handler has read from a request that it answers. -/
theorem Authorizer.handle_ok {a : Authorizer C} {json : AuthorizationJson} {body : AuthorizeBody}
    {now : UInt64} {response : AuthorizeResponse} (h : a.handle json body now = .ok response) :
    ∃ appraisal, a.appraise body = .ok appraisal ∧
      Base64.decode .standard body.eatB64.toList = some appraisal.eat ∧
      Hex.decodeArray 32 (trim body.binding.toList) = some appraisal.binding := by
  obtain ⟨appraisal, happraise, _⟩ := Outcome.bind_eq_ok.mp h
  refine ⟨appraisal, happraise, ?_⟩
  simp only [Authorizer.appraise, Outcome.bind_eq_ok, Outcome.ofOption_eq_ok, Outcome.pure_eq_ok,
    Outcome.ok.injEq] at happraise
  obtain ⟨eat, heat, binding, hbinding, _, _, _, _, rfl⟩ := happraise
  exact ⟨heat, hbinding⟩

/-- A request to one of the two services, with the times the attester's handler and gate read, or
a restart of the issuer. -/
inductive GateEvent (cfg : IssuerConfig C) where
  | authorize (body : AuthorizeBody) (clock : Int) (now : UInt64)
  | issuer (e : IssuerEvent)
  | restart (coins : List UInt8) (now : UInt64) (limiter : cfg.limiter.State)

inductive GateReply where
  | authorize (reply : Reply AuthorizeResponse)
  | issuer (reply : IssuerReply)
  | restarted

/-- One event, for an attester whose gate is one of the seven. -/
def GateSystem.step (attester : AttesterConfig C) (uq : UnifiedQuote) {cfg : IssuerConfig C}
    (s : IssuerProc cfg) : GateEvent cfg → Option (IssuerProc cfg × GateReply)
  | .authorize body clock now =>
    some (s, .authorize ((attester.authorizer uq clock).handle cfg.json body now))
  | .issuer e => (s.step e).map fun (s', r) => (s', .issuer r)
  | .restart coins now limiter =>
    match IssuerProc.start cfg coins now limiter with
    | .ok s' => some (s', .restarted)
    | _ => none

abbrev GateHistory (cfg : IssuerConfig C) := List (GateEvent cfg × GateReply)

/-- The attester was shown the evidence, and signed the bytes of the authorization for it. -/
def ObtainedWith (attester : AttesterConfig C) (uq : UnifiedQuote) {cfg : IssuerConfig C}
    (h : GateHistory cfg) (eat : List UInt8) (auth : IssuanceAuthorization) : Prop :=
  ∃ body clock now response appraisal,
    (.authorize body clock now, .authorize (.ok response)) ∈ h ∧
    (attester.authorizer uq clock).appraise body = .ok appraisal ∧ appraisal.eat = eat ∧
    auth.signedBytes = ((attester.authorizer uq clock).unsigned appraisal.measurement
      appraisal.binding body.maxBatch now).signedBytes

/-- The issuer signed the batch under an authorization that was obtained with the evidence. -/
def SignedWith (attester : AttesterConfig C) (uq : UnifiedQuote) {cfg : IssuerConfig C}
    (h : GateHistory cfg) (eat : List UInt8) (blinded : List (List UInt8)) : Prop :=
  ∃ body now limiterNow response auth,
    (.issuer (.sign body now limiterNow), .issuer (.sign (.ok response))) ∈ h ∧
    decodeAuthorization cfg.json body.authorizationB64 = .ok auth ∧
    ObtainedWith attester uq h eat auth ∧ body.req.body.blinded = blinded

/-- What is hashed to bind the batches that were signed in the run. -/
def signedMessages {cfg : IssuerConfig C} (h : GateHistory cfg) : Set (List UInt8) :=
  { m | ∃ body now limiterNow response,
    (.issuer (.sign body now limiterNow), .issuer (.sign (.ok response))) ∈ h ∧
    m = bindingMessage body.req.body.blinded }

section Runs

variable {attester : AttesterConfig C} {uq : UnifiedQuote} {cfg : IssuerConfig C}

/-- Authorizations that were obtained with the same evidence have the same binding. -/
theorem ObtainedWith.binding_eq (huq : uq.BindsOnce) {h : GateHistory cfg} {eat : List UInt8}
    {auth auth' : IssuanceAuthorization} (ha : ObtainedWith attester uq h eat auth)
    (ha' : ObtainedWith attester uq h eat auth') : auth.binding = auth'.binding := by
  obtain ⟨body, clock, now, _, appraisal, _, happraise, rfl, hbytes⟩ := ha
  obtain ⟨body', clock', now', _, appraisal', _, happraise', heat, hbytes'⟩ := ha'
  have hverify := Authorizer.appraise_ok happraise
  have hverify' := Authorizer.appraise_ok happraise'
  rw [heat] at hverify'
  calc auth.binding
      = appraisal.binding := (signedBytes_inj hbytes).1
    _ = appraisal'.binding :=
        Backend.gate_bindsOnce huq attester.backend attester.policy hverify hverify'
    _ = auth'.binding := (signedBytes_inj hbytes').1.symm

/-- A batch that was signed has the binding of its authorization. -/
theorem SignedWith.binding_eq {s₀ s : IssuerProc cfg} {h : GateHistory cfg} {eat : List UInt8}
    {blinded : List (List UInt8)} (ht : Trace (GateSystem.step attester uq) s₀ h s)
    (hs : SignedWith attester uq h eat blinded) :
    ∃ auth, ObtainedWith attester uq h eat auth ∧ auth.binding = bindingOf C blinded ∧
      bindingMessage blinded ∈ signedMessages h := by
  obtain ⟨body, now, limiterNow, response, auth, hmem, hdec, hobtained, rfl⟩ := hs
  refine ⟨auth, hobtained, ?_, body, now, limiterNow, response, hmem, rfl⟩
  obtain ⟨before, after, rfl⟩ := List.append_of_mem hmem
  obtain ⟨s₁, s₂, _, hstep, _⟩ := Trace.split_iff.mp ht
  simp only [GateSystem.step, Option.map_eq_some_iff] at hstep
  obtain ⟨⟨s', r⟩, hissuer, hsome⟩ := hstep
  cases hsome
  obtain ⟨auth', hdec', _, _, hbinding, _⟩ := IssuerProc.step_sign hissuer
  rw [hdec] at hdec'
  cases hdec'
  exact hbinding

/--
**One piece of evidence is good for one batch**, whichever gate and policy the attester has. Two
requests with the same evidence that the attester answers, at any times and for any `max_batch`,
have the same binding; and in any run, with restarts of the issuer, all batches that it signs under
authorizations obtained with that evidence are one batch.
-/
theorem one_batch_per_evidence (huq : uq.BindsOnce) :
    (∀ json body body' clock clock' now now' response response' eat b b',
      (attester.authorizer uq clock).handle json body now = .ok response →
      (attester.authorizer uq clock').handle json body' now' = .ok response' →
      Base64.decode .standard body.eatB64.toList = some eat →
      Base64.decode .standard body'.eatB64.toList = some eat →
      Hex.decodeArray 32 (trim body.binding.toList) = some b →
      Hex.decodeArray 32 (trim body'.binding.toList) = some b' → b = b') ∧
    (∀ {s₀ s : IssuerProc cfg} {h : GateHistory cfg}, Trace (GateSystem.step attester uq) s₀ h s →
      C.CollisionFree (signedMessages h) → ∀ {eat as bs}, Encodable as → Encodable bs →
      SignedWith attester uq h eat as → SignedWith attester uq h eat bs → as = bs) := by
  constructor
  · intro json body body' clock clock' now now' response response' eat b b' h h' heat heat' hb hb'
    obtain ⟨appraisal, happraise, heat₁, hb₁⟩ := Authorizer.handle_ok h
    obtain ⟨appraisal', happraise', heat₂, hb₂⟩ := Authorizer.handle_ok h'
    -- one gate has accepted the same evidence for both bindings
    have hverify := Authorizer.appraise_ok happraise
    have hverify' := Authorizer.appraise_ok happraise'
    rw [Option.some.inj (heat₁.symm.trans heat), Option.some.inj (hb₁.symm.trans hb)] at hverify
    rw [Option.some.inj (heat₂.symm.trans heat'), Option.some.inj (hb₂.symm.trans hb')] at hverify'
    exact Backend.gate_bindsOnce huq attester.backend attester.policy hverify hverify'
  · intro s₀ s h ht hM eat as bs hea heb has hbs
    obtain ⟨auth, hobtained, hbinding, hmem⟩ := has.binding_eq ht
    obtain ⟨auth', hobtained', hbinding', hmem'⟩ := hbs.binding_eq ht
    -- each authorization commits to its batch by the digest of the batch
    refine bindingMessage_inj hea heb (hM hmem hmem' ?_)
    exact hbinding.symm.trans ((hobtained.binding_eq huq hobtained').trans hbinding')

end Runs

/-! ## Evidence that is shown twice -/

/-- Tokens that are a nonce and the value of a build, on a platform whose quotes verify; evidence
of every other kind is refused. -/
def UnifiedQuote.sample : UnifiedQuote where
  eat :=
    { Token := Bytes 32 × List UInt8
      fromCbor := fun bytes =>
        match toBytes? 32 (bytes.take 32) with
        | some nonce => .ok (nonce, bytes.drop 32)
        | none => .error "short"
      eatNonce := Prod.fst
      platform := fun _ => 1
      platformEnum := fun _ => some .nitro
      platformQuote := fun _ => []
      bindingBytes := Prod.fst
      valueX := Prod.snd
      verifyPlatformQuote := fun _ _ _ _ => .ok () }
  azure :=
    ⟨Unit, fun _ => .error "no", fun _ => false, fun _ _ => .error "no", fun _ _ => .error "no"⟩
  android := ⟨Unit, "android", fun _ => .error "no", fun _ _ _ => .error "no"⟩
  ios := ⟨Unit, "ios", fun _ => .error "no", fun _ _ _ => .error "no"⟩
  tpm := ⟨Unit, fun _ => .error "no", fun _ _ _ _ => .error "no"⟩
  macOs := ⟨Unit, fun _ => .error "no", fun _ _ _ => .error "no"⟩
  assuranceTier := fun _ _ => ("silicon-cvm", "nitro")

theorem UnifiedQuote.sample_bindsOnce : UnifiedQuote.sample.BindsOnce where
  azure := ⟨nofun, nofun⟩
  android := nofun
  ios := nofun
  tpm := nofun
  macOs := nofun

/-- An attester whose policy lists one build. -/
def sampleAttester : AttesterConfig Crypto.sample where
  signer := sampleSigningKey
  ttlSecs := 60
  backend := .uq
  policy :=
    { version := 1
      id := "builds"
      validUntil := none
      evidenceProfile := .uqEat
      «class» := ⟨"accepted-builds", 1⟩
      registryMinimum := .recommended
      minTier := .siliconCvm
      allowedTierDetails := []
      allow := [⟨some [9], none, none⟩]
      requireIma := false
      bootAggregates := []
      desktopTpmEkRoots := []
      desktopTpmActivationPubkeys := []
      notes := none }

/-- Evidence of that build for the batch of one message. -/
def sampleEvidence : List UInt8 := (bindingOf Crypto.sample [[5]]).val ++ [9]

/-- What the attester signs for it. -/
def evidenceAuthorization (maxBatch : UInt32) (now : UInt64) : IssuanceAuthorization :=
  (sampleAttester.authorizer .sample 0).signed (.new "nitro" [9]) (bindingOf Crypto.sample [[5]])
    maxBatch now

/-- The two authorizations that the issuer of the run can read. -/
def evidenceAuthorizations : List IssuanceAuthorization :=
  [evidenceAuthorization 1 1000, evidenceAuthorization 8 1010]

theorem gate_sampleEvidence (clock : Int) :
    (sampleAttester.authorizer .sample clock).verifier.verify sampleEvidence
      (bindingOf Crypto.sample [[5]]) = .ok (.new "nitro" [9]) := by
  have hadmits : sampleAttester.policy.admits [9] = true := by decide +kernel
  have htier : sampleAttester.policy.tierAllowed UnifiedQuote.sample.assuranceTier "nitro" false
      = true := by decide +kernel
  have hlen := (bindingOf Crypto.sample [[5]]).property
  have hdecode : UnifiedQuote.sample.eat.fromCbor sampleEvidence
      = .ok (bindingOf Crypto.sample [[5]], [9]) := by
    simp only [UnifiedQuote.sample, sampleEvidence, List.take_left' hlen, List.drop_left' hlen,
      toBytes?_val]
  refine PolicyGated.verify_eq_ok.mpr ⟨?_, rfl, hadmits, htier⟩
  exact uqVerifier_eq_ok.mpr ⟨_, .nitro, hdecode, rfl, rfl, rfl, rfl⟩

/-- The client shows its evidence twice and has the batch signed under either authorization. -/
def evidenceBody (maxBatch : UInt32) : AuthorizeBody where
  eatB64 := String.ofList (Base64.encode .standard sampleEvidence)
  binding := String.ofList (Hex.encode (bindingOf Crypto.sample [[5]]).val)
  maxBatch := maxBatch

/-- The text of an authorization. -/
def evidenceAuthorizationB64 (maxBatch : UInt32) (now : UInt64) : String :=
  String.ofList (Base64.encode .standard
    ((AuthorizationJson.sample evidenceAuthorizations).toVec (evidenceAuthorization maxBatch now)))

def evidenceSignBody (maxBatch : UInt32) (now : UInt64) : SignBody :=
  { sampleSignBody with authorizationB64 := evidenceAuthorizationB64 maxBatch now }

/-- The answers of the attester and the issuer. -/
def replayedEvidence : GateHistory (sampleConfig evidenceAuthorizations) :=
  [(.authorize (evidenceBody 1) 0 1000, .authorize (.ok ⟨evidenceAuthorizationB64 1 1000⟩)),
    (.authorize (evidenceBody 8) 7 1010, .authorize (.ok ⟨evidenceAuthorizationB64 8 1010⟩)),
    (.issuer (.sign (evidenceSignBody 1 1000) 1030 1030),
      .issuer (.sign (.ok ⟨[Crypto.sample.pomfrit.sign2 [1] [5]]⟩))),
    (.issuer (.sign (evidenceSignBody 8 1010) 1040 1040),
      .issuer (.sign (.ok ⟨[Crypto.sample.pomfrit.sign2 [1] [5]]⟩)))]

theorem authorize_evidenceBody (maxBatch : UInt32) (hne : maxBatch ≠ 0) (clock : Int)
    (now : UInt64) (s : IssuerProc (sampleConfig evidenceAuthorizations)) :
    GateSystem.step sampleAttester .sample s (.authorize (evidenceBody maxBatch) clock now)
      = some (s, .authorize (.ok ⟨evidenceAuthorizationB64 maxBatch now⟩)) := by
  have hhandle := Authorizer.handle_eq_ok (gate_sampleEvidence clock) hne
    (sampleConfig evidenceAuthorizations).json now
  exact congrArg (fun r => some (s, GateReply.authorize r)) hhandle

theorem sign_evidenceSignBody (maxBatch : UInt32) (now clock : UInt64)
    (hread : (AuthorizationJson.sample evidenceAuthorizations).fromSlice
      ((AuthorizationJson.sample evidenceAuthorizations).toVec (evidenceAuthorization maxBatch now))
      = some (evidenceAuthorization maxBatch now)) (hbatch : 1 ≤ maxBatch)
    (hclock : clock ≤ saturatingAddU64 now 60) :
    GateSystem.step sampleAttester .sample (sampleIssuer evidenceAuthorizations)
      (.issuer (.sign (evidenceSignBody maxBatch now) clock clock))
      = some (sampleIssuer evidenceAuthorizations,
          .issuer (.sign (.ok ⟨[Crypto.sample.pomfrit.sign2 [1] [5]]⟩))) := by
  have hne : maxBatch ≠ 0 := by
    rintro rfl
    exact absurd hbatch (by decide)
  have hverify : (evidenceAuthorization maxBatch now).verify Crypto.sample
      (sampleConfig evidenceAuthorizations).attesterPub clock = .ok () :=
    Authorizer.verify_signed Faest.sample_complete rfl _ _ hne hclock
  have hissue : issueAuthorizedWithLimit Crypto.sample noLimit
      (Issuer.generate Crypto.sample [1] 1) (sampleConfig evidenceAuthorizations).attesterPub
      sampleSignBody.req (evidenceAuthorization maxBatch now) () clock clock
      = ((), .ok ⟨[Crypto.sample.pomfrit.sign2 [1] [5]]⟩) :=
    issueAuthorizedWithLimit_eq_ok hverify rfl rfl hbatch rfl rfl
  have hsign : (sampleConfig evidenceAuthorizations).sign
      (sampleIssuer evidenceAuthorizations).rot () (evidenceSignBody maxBatch now) clock clock
      = ((), .ok ⟨[Crypto.sample.pomfrit.sign2 [1] [5]]⟩) :=
    IssuerConfig.sign_eq_ok (decodeAuthorization_encode hread) hissue
  rw [GateSystem.step, IssuerProc.step_sign_eq hsign]
  rfl

theorem replayedEvidence_trace :
    Trace (GateSystem.step sampleAttester .sample) (sampleIssuer evidenceAuthorizations)
      replayedEvidence (sampleIssuer evidenceAuthorizations) := by
  have hfirst := authorize_evidenceBody 1 (by decide) 0 1000
    (sampleIssuer evidenceAuthorizations)
  have hsecond := authorize_evidenceBody 8 (by decide) 7 1010
    (sampleIssuer evidenceAuthorizations)
  have hthird := sign_evidenceSignBody 1 1000 1030 (by decide +kernel) (by decide) (by decide)
  have hfourth := sign_evidenceSignBody 8 1010 1040 (by decide +kernel) (by decide) (by decide)
  exact .snoc (.snoc (.snoc (.snoc .init hfirst) hsecond) hthird) hfourth

/-- The batch was signed under an authorization for the evidence. -/
theorem signedWith_sampleEvidence :
    SignedWith sampleAttester .sample replayedEvidence sampleEvidence [[5]] := by
  have happraise : (sampleAttester.authorizer .sample 0).appraise (evidenceBody 1)
      = .ok ⟨sampleEvidence, bindingOf Crypto.sample [[5]], .new "nitro" [9]⟩ := by
    simp only [Authorizer.appraise, evidenceBody, String.toList_ofList, Base64.decode_encode,
      Hex.trim_encode, Hex.decodeArray_encode, Outcome.ofOption_some, Outcome.ok_bind,
      gate_sampleEvidence]
    rfl
  refine ⟨evidenceSignBody 1 1000, 1030, 1030, ⟨[Crypto.sample.pomfrit.sign2 [1] [5]]⟩,
    evidenceAuthorization 1 1000, ?_, decodeAuthorization_encode (by decide +kernel), ?_, rfl⟩
  · exact .tail _ (.tail _ (.head _))
  · exact ⟨evidenceBody 1, 0, 1000, _, _, .head _, happraise, rfl, rfl⟩

theorem one_batch_per_evidence_sample :
    SignedWith sampleAttester .sample replayedEvidence sampleEvidence [[5]] ∧
    ∀ blinded, Encodable blinded →
      SignedWith sampleAttester .sample replayedEvidence sampleEvidence blinded →
      blinded = [[5]] := by
  refine ⟨signedWith_sampleEvidence, fun blinded henc hsigned => ?_⟩
  have hM : Crypto.sample.CollisionFree (signedMessages replayedEvidence) := by
    refine @Crypto.collisionFree_of_list _ _ [bindingMessage [[5]]] ?_ ?_
    · rintro m ⟨body, now, limiterNow, response, hmem, rfl⟩
      have hblinded : body.req.body.blinded = [[5]] := by
        simp only [replayedEvidence, List.mem_cons, List.not_mem_nil, or_false, Prod.mk.injEq,
          reduceCtorEq, false_and, false_or, GateEvent.issuer.injEq, IssuerEvent.sign.injEq] at hmem
        rcases hmem with ⟨⟨rfl, _⟩, _⟩ | ⟨⟨rfl, _⟩, _⟩ <;> rfl
      rw [hblinded]
      exact List.mem_cons_self
    · intro a ha b hb _
      rw [List.mem_singleton.mp ha, List.mem_singleton.mp hb]
  exact (one_batch_per_evidence UnifiedQuote.sample_bindsOnce).2 replayedEvidence_trace hM henc
    ⟨by decide, by decide⟩ hsigned signedWith_sampleEvidence

end EatPass
