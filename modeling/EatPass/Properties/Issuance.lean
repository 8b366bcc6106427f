import EatPass.Infra.Trace
import EatPass.Cli.Attester
import EatPass.Cli.Issuer

/-!
# Only attested batches are signed

The attester and the issuer share nothing but the attester's public key; what connects them is
an authorization that the client carries from one to the other. An adversary may send anything to
both, in any order and as often as it likes. Still, a batch that the issuer signs is one for which
the attester accepted evidence, and one authorization is good for one batch only.

A run is a run of `IssuanceSystem.step`. Its history holds the answers of the attester, so "a
signature verifies only on messages the attester key signed" is a property of the history
(`Unforged`). That such an answer means accepted evidence is what the handler is for
(`attested_of_carried`). Of `serde_json` it is used that two authorizations are not written alike.
-/

namespace EatPass

open Infra

variable {C : Crypto}

/-- A request to one of the two services. -/
inductive IssuanceEvent where
  | authorize (body : AuthorizeBody) (now : UInt64)
  | issuer (e : IssuerEvent)
deriving DecidableEq

inductive IssuanceReply where
  | authorize (reply : Reply AuthorizeResponse)
  | issuer (reply : IssuerReply)
deriving DecidableEq

/-- One request. The attester keeps no state. -/
def IssuanceSystem.step (a : Authorizer C) {cfg : IssuerConfig C} (s : IssuerProc cfg) :
    IssuanceEvent → Option (IssuerProc cfg × IssuanceReply)
  | .authorize body now => some (s, .authorize (a.handle cfg.json body now))
  | .issuer e => (s.step e).map fun (s', r) => (s', .issuer r)

/-- The history of the two services. -/
abbrev IssuanceHistory := List (IssuanceEvent × IssuanceReply)

/-- The attester accepted the evidence of a request at the time, and answered. -/
def Attested (a : Authorizer C) (h : IssuanceHistory) (appraisal : Appraisal) (maxBatch : UInt32)
    (iat : UInt64) : Prop :=
  ∃ body response, (.authorize body iat, .authorize (.ok response)) ∈ h ∧
    a.appraise body = .ok appraisal ∧ body.maxBatch = maxBatch

/-- The answer carries the authorization, as the text that the client takes to the issuer. -/
def AuthorizeResponse.Carries (json : AuthorizationJson) (response : AuthorizeResponse)
    (auth : IssuanceAuthorization) : Prop :=
  response.authorizationB64 = String.ofList (Base64.encode .standard (json.toVec auth))

/-- **The attester's signature cannot be forged** in the run: when the issuer is shown an
authorization whose signature verifies, an answer of the attester carried one with the same signed
bytes before. What the attester answers, and why, is not said here. -/
def Unforged (cfg : IssuerConfig C) (h : IssuanceHistory) : Prop :=
  ∀ before after body now limiterNow reply auth,
    h = before ++ (.issuer (.sign body now limiterNow), reply) :: after →
    decodeAuthorization cfg.json body.authorizationB64 = .ok auth →
    C.faest.verify cfg.attesterPub auth.signedBytes auth.sig = true →
    ∃ request iat response sent,
      (.authorize request iat, .authorize (.ok response)) ∈ before ∧
      response.Carries cfg.json sent ∧ sent.signedBytes = auth.signedBytes

/-- What is hashed to bind the batches that the issuer is asked to sign. -/
def batchMessages (h : IssuanceHistory) : Set (List UInt8) :=
  { m | ∃ body now limiterNow reply, (.issuer (.sign body now limiterNow), reply) ∈ h ∧
    m = bindingMessage body.req.body.blinded }

/-- The issuer signed the batch of the request under the authorization. -/
def SignedUnder (cfg : IssuerConfig C) (h : IssuanceHistory) (auth : IssuanceAuthorization)
    (blinded : List (List UInt8)) : Prop :=
  ∃ body now limiterNow response,
    (.issuer (.sign body now limiterNow), .issuer (.sign (.ok response))) ∈ h ∧
    decodeAuthorization cfg.json body.authorizationB64 = .ok auth ∧
    body.req.body.blinded = blinded

/-! ## One step -/

variable {a : Authorizer C} {cfg : IssuerConfig C}

/-- What the issuer has checked when it answers with signatures. -/
theorem IssuerProc.step_sign {s s' : IssuerProc cfg} {body : SignBody} {now limiterNow : UInt64}
    {response : SignResponse}
    (h : s.step (.sign body now limiterNow) = some (s', .sign (.ok response))) :
    ∃ auth, decodeAuthorization cfg.json body.authorizationB64 = .ok auth ∧
      C.faest.verify cfg.attesterPub auth.signedBytes auth.sig = true ∧ now ≤ auth.exp ∧
      auth.binding = bindingOf C body.req.body.blinded ∧
      UInt32.ofNat body.req.body.blinded.length ≤ auth.maxBatch := by
  have hsign : (cfg.sign s.rot s.limiter body now limiterNow).2 = .ok response := by
    have hreply := congrArg (Option.map Prod.snd) h
    simpa only [IssuerProc.step, Option.map_some, Option.some.injEq, IssuerReply.sign.injEq]
      using hreply
  unfold IssuerConfig.sign at hsign
  cases hdec : decodeAuthorization cfg.json body.authorizationB64 with
  | err e => simp [hdec] at hsign
  | panic => simp [hdec] at hsign
  | ok auth =>
    simp only [hdec] at hsign
    exact ⟨auth, rfl, issueAuthorizedWithLimit_ok
      (Prod.ext rfl (Outcome.mapErr_eq_ok.mp hsign))⟩

/-- The same, at a place in a history. -/
theorem signed_at {s₀ s : IssuerProc cfg} {h : IssuanceHistory} {body : SignBody}
    {now limiterNow : UInt64} {response : SignResponse}
    (ht : Trace (IssuanceSystem.step a) s₀ h s)
    (hmem : (.issuer (.sign body now limiterNow), .issuer (.sign (.ok response))) ∈ h) :
    ∃ auth, decodeAuthorization cfg.json body.authorizationB64 = .ok auth ∧
      C.faest.verify cfg.attesterPub auth.signedBytes auth.sig = true ∧ now ≤ auth.exp ∧
      auth.binding = bindingOf C body.req.body.blinded ∧
      UInt32.ofNat body.req.body.blinded.length ≤ auth.maxBatch := by
  obtain ⟨before, after, rfl⟩ := List.append_of_mem hmem
  obtain ⟨s₁, s₂, _, hstep, _⟩ := Trace.split_iff.mp ht
  simp only [IssuanceSystem.step, Option.map_eq_some_iff] at hstep
  obtain ⟨⟨s', r⟩, hissuer, hsome⟩ := hstep
  cases hsome
  exact IssuerProc.step_sign hissuer

/-- **An answer of the attester means that it accepted evidence**: the authorization that it carries
is signed for what the gate found. -/
theorem attested_of_carried {s₀ s : IssuerProc cfg} {h : IssuanceHistory} {body : AuthorizeBody}
    {iat : UInt64} {response : AuthorizeResponse} {sent : IssuanceAuthorization}
    (ht : Trace (IssuanceSystem.step a) s₀ h s) (hjson : Function.Injective cfg.json.toVec)
    (hmem : (.authorize body iat, .authorize (.ok response)) ∈ h)
    (hsent : response.Carries cfg.json sent) :
    ∃ appraisal, Attested a h appraisal body.maxBatch iat ∧
      sent = a.signed appraisal.measurement appraisal.binding body.maxBatch iat := by
  obtain ⟨before, after, hsplit⟩ := List.append_of_mem hmem
  have hhandle : a.handle cfg.json body iat = .ok response := by
    rw [hsplit] at ht
    obtain ⟨s₁, s₂, _, hstep, _⟩ := Trace.split_iff.mp ht
    simp only [IssuanceSystem.step, Option.some.injEq, Prod.mk.injEq,
      IssuanceReply.authorize.injEq] at hstep
    exact hstep.2
  obtain ⟨appraisal, happraise, htext⟩ := Authorizer.handle_signs hhandle
  refine ⟨appraisal, ⟨body, response, hmem, happraise, rfl⟩, ?_⟩
  -- the two texts are one, and they are read apart
  have hchars := String.ofList_injective (hsent.symm.trans htext)
  exact hjson (Base64.encode_injective .standard hchars)

/-- Two batches with one binding are one batch. -/
theorem batch_eq_of_binding_eq {h : IssuanceHistory} (hM : C.CollisionFree (batchMessages h))
    {as bs : List (List UInt8)} (ha : bindingMessage as ∈ batchMessages h)
    (hb : bindingMessage bs ∈ batchMessages h) (hea : Encodable as) (heb : Encodable bs)
    (hbinding : bindingOf C as = bindingOf C bs) : as = bs :=
  bindingMessage_inj hea heb (hM ha hb hbinding)

/-! ## Every run -/

/--
**A batch the issuer signs was attested, in time and in size, and its authorization is good for no
other batch.** Whatever requests came before, the attester accepted some evidence for the binding
of this very batch; the issuer's clock was then at most `ttl_secs` ahead, and the batch is no
larger than the limit the attester signed. Every batch that is ever signed under an authorization
with the same bytes is this batch.
-/
theorem signed_batch_attested {s₀ s : IssuerProc cfg} {h before after : IssuanceHistory}
    {body : SignBody} {now limiterNow : UInt64} {response : SignResponse}
    (ht : Trace (IssuanceSystem.step a) s₀ h s) (hu : Unforged cfg h)
    (hjson : Function.Injective cfg.json.toVec) (hM : C.CollisionFree (batchMessages h))
    (hsplit : h = before ++
      (.issuer (.sign body now limiterNow), .issuer (.sign (.ok response))) :: after)
    (henc : Encodable body.req.body.blinded) :
    (∃ appraisal maxBatch iat, Attested a before appraisal maxBatch iat ∧
      a.verifier.verify appraisal.eat (bindingOf C body.req.body.blinded)
        = .ok appraisal.measurement ∧
      now ≤ saturatingAddU64 iat a.ttlSecs ∧
      body.req.body.blinded.length ≤ maxBatch.toNat) ∧
    ∃ auth, decodeAuthorization cfg.json body.authorizationB64 = .ok auth ∧
      ∀ other blinded, other.signedBytes = auth.signedBytes → Encodable blinded →
        SignedUnder cfg h other blinded → blinded = body.req.body.blinded := by
  have hmem : (IssuanceEvent.issuer (.sign body now limiterNow),
      IssuanceReply.issuer (.sign (.ok response))) ∈ h := by rw [hsplit]; simp
  obtain ⟨auth, hdec, hsig, hexp, hbinding, hbatch⟩ := signed_at ht hmem
  refine ⟨?_, auth, hdec, ?_⟩
  · obtain ⟨request, iat, response', sent, hsent, hcarries, hbytes⟩ :=
      hu before after body now limiterNow _ auth hsplit hdec hsig
    rw [hsplit] at ht
    obtain ⟨s₁, _, hbefore, _, _⟩ := Trace.split_iff.mp ht
    obtain ⟨appraisal, hattested, rfl⟩ := attested_of_carried hbefore hjson hsent hcarries
    -- the attester signed the same bytes, hence the same binding, expiry and limit
    obtain ⟨hb, hm, he, _⟩ := signedBytes_inj hbytes.symm
    refine ⟨appraisal, request.maxBatch, iat, hattested, ?_, ?_, ?_⟩
    · obtain ⟨_, _, _, happraise, _⟩ := hattested
      have hb' : appraisal.binding = bindingOf C body.req.body.blinded := hb.symm.trans hbinding
      rw [← hb']
      exact Authorizer.appraise_ok happraise
    · rw [he] at hexp
      exact hexp
    · rw [hm, UInt32.le_iff_toNat_le, UInt32.toNat_ofNat', Nat.mod_eq_of_lt henc.1] at hbatch
      exact hbatch
  · rintro other blinded hbytes hencoded ⟨body', now', limiterNow', response', hmem', hdec', rfl⟩
    obtain ⟨auth', hdec'', _, _, hbinding', _⟩ := signed_at ht hmem'
    rw [hdec'] at hdec''
    cases hdec''
    refine batch_eq_of_binding_eq hM ⟨body', now', limiterNow', _, hmem', rfl⟩
      ⟨body, now, limiterNow, _, hmem, rfl⟩ hencoded henc ?_
    rw [← hbinding', ← hbinding, (signedBytes_inj hbytes).1]

/-! ## A run -/

/-- A gate that accepts one piece of evidence, for any binding. -/
def sampleAuthorizer : Authorizer Crypto.sample where
  signer := sampleSigningKey
  verifier :=
    { verify := fun eat _ =>
        if eat = [1] then .ok (.new "dev" [9]) else .err .measurementNotAllowed }
  ttlSecs := 60
  policyLabel := "accepted-builds@v1"

/-- What it signs at time 1000 for the batch of one message. -/
def sampleAuthorization : IssuanceAuthorization :=
  sampleAuthorizer.signed (.new "dev" [9]) (bindingOf Crypto.sample [[5]]) 1 1000

/-- The text the client carries. -/
def sampleAuthorizationB64 : String :=
  String.ofList (Base64.encode .standard
    ((AuthorizationJson.sample [sampleAuthorization]).toVec sampleAuthorization))

def sampleAuthorizeBody : AuthorizeBody where
  eatB64 := String.ofList (Base64.encode .standard [1])
  binding := String.ofList (Hex.encode (bindingOf Crypto.sample [[5]]).val)
  maxBatch := 1

def sampleSignBody : SignBody where
  req :=
    { tokenChallenge := TokenChallenge.new "issuer.example" "origin.example"
      keyVersion := 1
      body := ⟨[[5]], bindingOf Crypto.sample [[5]]⟩ }
  authorizationB64 := sampleAuthorizationB64

/-- The client is authorized, then its batch is signed half a minute later. -/
def sampleIssuance : IssuanceHistory :=
  [(.authorize sampleAuthorizeBody 1000, .authorize (.ok ⟨sampleAuthorizationB64⟩)),
    (.issuer (.sign sampleSignBody 1030 1030),
      .issuer (.sign (.ok ⟨[Crypto.sample.pomfrit.sign2 [1] [5]]⟩)))]

theorem sampleIssuance_decode :
    decodeAuthorization (sampleConfig [sampleAuthorization]).json sampleAuthorizationB64
      = .ok sampleAuthorization :=
  decodeAuthorization_encode (by simp [sampleConfig, AuthorizationJson.sample])

theorem sampleIssuance_issue :
    issueAuthorizedWithLimit Crypto.sample noLimit (Issuer.generate Crypto.sample [1] 1)
      (sampleConfig [sampleAuthorization]).attesterPub sampleSignBody.req sampleAuthorization ()
      1030 1030 = ((), .ok ⟨[Crypto.sample.pomfrit.sign2 [1] [5]]⟩) := by
  have hverify : sampleAuthorization.verify Crypto.sample
      (sampleConfig [sampleAuthorization]).attesterPub 1030 = .ok () :=
    Authorizer.verify_signed Faest.sample_complete rfl _ _ (by decide) (by decide)
  exact issueAuthorizedWithLimit_eq_ok hverify rfl rfl (by decide) rfl rfl

theorem sampleIssuance_trace :
    Trace (IssuanceSystem.step sampleAuthorizer) (sampleIssuer [sampleAuthorization])
      sampleIssuance (sampleIssuer [sampleAuthorization]) := by
  have hauthorize : sampleAuthorizer.handle (sampleConfig [sampleAuthorization]).json
      sampleAuthorizeBody 1000 = .ok ⟨sampleAuthorizationB64⟩ :=
    Authorizer.handle_eq_ok rfl (by decide) _ 1000
  have hsign : (sampleConfig [sampleAuthorization]).sign (sampleIssuer [sampleAuthorization]).rot
      () sampleSignBody 1030 1030 = ((), .ok ⟨[Crypto.sample.pomfrit.sign2 [1] [5]]⟩) :=
    IssuerConfig.sign_eq_ok sampleIssuance_decode sampleIssuance_issue
  have hfirst : IssuanceSystem.step sampleAuthorizer (sampleIssuer [sampleAuthorization])
      (.authorize sampleAuthorizeBody 1000) = some (sampleIssuer [sampleAuthorization],
        .authorize (.ok ⟨sampleAuthorizationB64⟩)) := by
    rw [IssuanceSystem.step, hauthorize]
  have hsecond : IssuanceSystem.step sampleAuthorizer (sampleIssuer [sampleAuthorization])
      (.issuer (.sign sampleSignBody 1030 1030)) = some (sampleIssuer [sampleAuthorization],
        .issuer (.sign (.ok ⟨[Crypto.sample.pomfrit.sign2 [1] [5]]⟩))) := by
    rw [IssuanceSystem.step, IssuerProc.step_sign_eq hsign]
    rfl
  exact .snoc (.snoc .init hfirst) hsecond

theorem sampleIssuance_unforged :
    Unforged (sampleConfig [sampleAuthorization]) sampleIssuance := by
  intro before after body now limiterNow reply auth hsplit hdec _
  -- the only request to sign is the second one
  have hcase : before = [(.authorize sampleAuthorizeBody 1000,
      .authorize (.ok ⟨sampleAuthorizationB64⟩))] ∧ body = sampleSignBody := by
    match before, hsplit with
    | [], hsplit => cases hsplit
    | [_], hsplit => cases hsplit; exact ⟨rfl, rfl⟩
    | _ :: _ :: _, hsplit => simp [sampleIssuance] at hsplit
  obtain ⟨rfl, rfl⟩ := hcase
  rw [show sampleSignBody.authorizationB64 = sampleAuthorizationB64 from rfl,
    sampleIssuance_decode] at hdec
  cases hdec
  exact ⟨_, 1000, _, _, List.mem_singleton_self _, rfl, rfl⟩

theorem signed_batch_attested_sample :
    (∃ appraisal maxBatch iat, Attested sampleAuthorizer (sampleIssuance.take 1) appraisal maxBatch
        iat ∧
      sampleAuthorizer.verifier.verify appraisal.eat (bindingOf Crypto.sample [[5]])
        = .ok appraisal.measurement ∧
      1030 ≤ saturatingAddU64 iat sampleAuthorizer.ttlSecs ∧ 1 ≤ maxBatch.toNat) := by
  have hM : Crypto.sample.CollisionFree (batchMessages sampleIssuance) := by
    refine @Crypto.collisionFree_of_list _ _ [bindingMessage [[5]]] ?_ ?_
    · rintro m ⟨body, now, limiterNow, reply, hmem, rfl⟩
      simp only [sampleIssuance, List.mem_cons, List.not_mem_nil, or_false, Prod.mk.injEq,
        reduceCtorEq, false_and, false_or] at hmem
      cases hmem.1
      exact List.mem_cons_self
    · intro a ha b hb _
      rw [List.mem_singleton.mp ha, List.mem_singleton.mp hb]
  have hjson : Function.Injective (sampleConfig [sampleAuthorization]).json.toVec :=
    fun _ _ h => authorizationText_injective (utf8_injective h)
  exact (signed_batch_attested sampleIssuance_trace sampleIssuance_unforged hjson hM
    (show sampleIssuance = sampleIssuance.take 1 ++ (_, _) :: [] from rfl)
    ⟨by decide, by decide⟩).1

end EatPass
