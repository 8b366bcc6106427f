import EatPass.Cli.Client
import EatPass.Properties.Issuance
import EatPass.Properties.Presentation

/-!
# A token from its challenge to its presentation

A client takes a challenge from an origin and a key from the issuer, has its batch attested and
signed, and later presents its tokens to that origin. When the issuer, the attester and the
redeemer are honest, everything fits together: the headers and the encodings are read back, the
proofs verify, the challenge is still remembered, and the key is found again.

* `fetch_succeeds` — the batch is signed and every token is minted
* `presented_granted_iff` — what became of the tokens
* `minted_tokens_granted_iff` — the two together, over every run
-/

namespace EatPass

open Infra

variable {C : Crypto} {cfg : IssuerConfig C}

/-! ## The batch -/

/-- A run in which no rotation completes leaves the guarded state as it is. -/
theorem IssuerProc.rot_eq_of_trace {s s' : IssuerProc cfg} {k : List (IssuerEvent × IssuerReply)}
    (ht : Trace IssuerProc.step s k s') (hk : rotations k = 0) : s'.rot = s.rot := by
  induction ht with
  | init => rfl
  | snoc _ hstep ih =>
    rw [rotations_snoc] at hk
    have hrest := ih (by omega)
    cases IssuerProc.step_cases hstep with
    | quiet rot tasks event reply => rw [rot, hrest]
    | read task header version event reply free next rot tasks => rw [rot, hrest]
    | generate task coins now version event reply read rot tasks => rw [rot, hrest]
    | write task newIssuer now response event reply generated rot tasks =>
      subst event reply
      simp [isRotation] at hk

/-- `/keys` has answered with the key, and no rotation has completed since. -/
def KeyFetched (h : ServiceHistory) (pk : IssuerPublicKey) : Prop :=
  ∃ before after, h = before ++ (.issuer .keys, .issuer (.keys pk)) :: after ∧
    rotations (issuerHistory after) = 0

theorem KeyFetched.current {s₀ s : Services cfg} {h : ServiceHistory} {pk : IssuerPublicKey}
    (hfetched : KeyFetched h pk) (ht : Trace Services.step s₀ h s) :
    s.issuer.rot.current.public = pk := by
  obtain ⟨before, after, rfl, hrotations⟩ := hfetched
  obtain ⟨s₁, s₂, _, hstep, hafter⟩ := Trace.split_iff.mp ht
  simp only [Services.step, Option.map_eq_some_iff] at hstep
  obtain ⟨⟨issuer, r⟩, hissuer, heq⟩ := hstep
  cases heq
  obtain ⟨hpk, hrot⟩ := IssuerProc.step_keys hissuer
  rw [IssuerProc.rot_eq_of_trace (issuer_trace hafter) hrotations, hpk, ← hrot]

/-- The evidence of a client, what it proves, and the times that the attester, the issuer and its
limiter read. -/
structure Exchange where
  eat : List UInt8
  measurement : Measurement
  iat : UInt64
  now : UInt64
  limiterNow : UInt64

/-- The authorization that the attester answers with. -/
def Exchange.authorization (x : Exchange) (a : Authorizer C) (req : SignRequest) :
    IssuanceAuthorization :=
  a.signed x.measurement req.body.binding (UInt32.ofNat req.body.blinded.length) x.iat

/-- The attester accepts the evidence, what it writes can be read, and when the issuer gets it, it
has not expired and the quota is available. -/
structure Exchange.Honest (x : Exchange) (a : Authorizer C) (s : IssuerProc cfg)
    (req : SignRequest) : Prop where
  accepted : a.verifier.verify x.eat req.body.binding = .ok x.measurement
  json : cfg.json.fromSlice (cfg.json.toVec (x.authorization a req))
    = some (x.authorization a req)
  current : x.now ≤ saturatingAddU64 x.iat a.ttlSecs
  quota : ∃ limiter, cfg.limiter.tryConsume s.limiter x.limiterNow (x.measurement.rateLimitId C)
    (UInt32.ofNat req.body.blinded.length) = (limiter, .ok ())

@[simp] theorem clientBeginRequest_blinded_length (pk : IssuerPublicKey) (ch : TokenChallenge)
    (coins : List (Bytes 32 × Bytes 32)) :
    (clientBeginRequest C pk ch coins).1.body.blinded.length = coins.length := by
  simp [clientBeginRequest, clientBegin]

/-- **The batch is authorized, signed and finalized**, with one token for each pair of random
values. -/
theorem fetch_succeeds (hf : C.faest.Complete) {a : Authorizer C} {s : IssuerProc cfg}
    (hattester : C.faest.verifyingKeyFromBytes (C.faest.publicBytesFromSk a.signer)
      = some cfg.attesterPub)
    {ch : TokenChallenge} {coins : List (Bytes 32 × Bytes 32)} (hpos : 1 ≤ coins.length)
    (hlt : coins.length < 2 ^ 32) {req : SignRequest} {pending : PendingTokens C}
    (hbegin : clientBeginRequest C s.rot.current.public ch coins = (req, pending)) {x : Exchange}
    (hx : x.Honest a s req) :
    ∃ response resp limiter,
      a.handle cfg.json (authorizeBody x.eat req coins.length) x.iat = .ok response ∧
      s.step (.sign ⟨req, response.authorizationB64⟩ x.now x.limiterNow)
        = some ({ s with limiter }, .sign (.ok resp)) ∧
      pending.finalize C s.rot.current.public resp
        = .ok (coins.map (mintedToken C s.rot.current ch)) := by
  have hmint := finalize_blindSign C s.rot.current ch coins
  rw [hbegin] at hmint
  obtain ⟨resp, hsigned, hfinalize⟩ := Outcome.bind_eq_ok.mp hmint
  have hlen : req.body.blinded.length = coins.length := by
    rw [← clientBeginRequest_blinded_length s.rot.current.public ch coins, hbegin]
  have hbinding : req.body.binding = bindingOf C req.body.blinded := by
    have heq : req = (clientBeginRequest C s.rot.current.public ch coins).1 := by rw [hbegin]
    rw [heq]
    rfl
  -- a count below `2 ^ 32` fits the limit of the authorization, so it is not zero there
  have hne : UInt32.ofNat req.body.blinded.length ≠ 0 := by
    intro hzero
    have hcount := congrArg UInt32.toNat hzero
    rw [hlen, UInt32.toNat_ofNat', Nat.mod_eq_of_lt hlt] at hcount
    exact absurd hcount (Nat.ne_of_gt hpos)
  have hverify : (x.authorization a req).verify C cfg.attesterPub x.now = .ok () :=
    Authorizer.verify_signed hf hattester _ _ hne hx.current
  obtain ⟨limiter, hquota⟩ := hx.quota
  have hissue : issueAuthorizedWithLimit C cfg.limiter s.rot.current cfg.attesterPub req
      (x.authorization a req) s.limiter x.now x.limiterNow = (limiter, .ok resp) :=
    issueAuthorizedWithLimit_eq_ok hverify hbinding hbinding (UInt32.le_refl _) hquota hsigned
  rw [← hlen]
  exact ⟨_, resp, limiter, Authorizer.handle_eq_ok hx.accepted hne cfg.json x.iat,
    IssuerProc.step_sign_eq (IssuerConfig.sign_eq_ok (decodeAuthorization_encode hx.json) hissue),
    hfinalize⟩

/-! ## Runs -/

/-- The step in which the issuer signs the batch. -/
def Exchange.signing (x : Exchange) (req : SignRequest) (response : AuthorizeResponse)
    (resp : SignResponse) : ServiceEvent × ServiceReply :=
  (.issuer (.sign ⟨req, response.authorizationB64⟩ x.now x.limiterNow), .issuer (.sign (.ok resp)))

/-- The services when it has: only the limiter has changed. -/
def Services.signed (s : Services cfg) (limiter : cfg.limiter.State) (x : Exchange)
    (req : SignRequest) (response : AuthorizeResponse) (resp : SignResponse) : Services cfg :=
  { s with
    issuer := { s.issuer with limiter }
    served := s.served ++
      [(.sign ⟨req, response.authorizationB64⟩ x.now x.limiterNow, .sign (.ok resp))] }

theorem Services.step_signing (s : Services cfg) {limiter : cfg.limiter.State} {x : Exchange}
    {req : SignRequest} {response : AuthorizeResponse} {resp : SignResponse}
    (hsign : s.issuer.step (.sign ⟨req, response.authorizationB64⟩ x.now x.limiterNow)
      = some ({ s.issuer with limiter }, .sign (.ok resp))) :
    s.step (x.signing req response resp).1
      = some (s.signed limiter x req response resp, (x.signing req response resp).2) := by
  simp only [Exchange.signing, Services.step, hsign, Option.map_some, Services.signed]

/-- Signing changes nothing that a rotation or an origin reads. -/
theorem CanRotate.signing {s s' : Services cfg} {admin : String} {keys : Published}
    (h : CanRotate s.issuer admin keys) {x : Exchange} {req : SignRequest}
    {response : AuthorizeResponse} {resp : SignResponse}
    (hstep : s.step (x.signing req response resp).1 = some (s', (x.signing req response resp).2)) :
    CanRotate s'.issuer admin keys ∧ s'.origins = s.origins := by
  simp only [Exchange.signing, Services.step, Option.map_eq_some_iff] at hstep
  obtain ⟨⟨p, r⟩, hissuer, heq⟩ := hstep
  cases heq
  cases IssuerProc.step_cases hissuer with
  | quiet rot tasks event reply =>
    have hfree : p.tasks 0 = none := by
      by_contra hne
      obtain ⟨task, htask⟩ := Option.ne_none_iff_exists'.mp hne
      exact absurd (h.free.symm.trans (tasks 0 task htask)) (by simp)
    exact ⟨⟨h.release, h.admin, hfree, rot ▸ h.publishes⟩, rfl⟩
  | read task header version event reply free next rot tasks => cases event
  | generate task coins now version event reply read rot tasks => cases event
  | write task newIssuer now response event reply generated rot tasks => cases event

theorem seedsOf_issuerHistory_append (coins : List UInt8) (h more : ServiceHistory) :
    seedsOf coins (issuerHistory (h ++ more)) = seedsOf coins (issuerHistory h)
      ++ (issuerHistory more).filterMap fun x => x.1.seed := by
  rw [issuerHistory_append, seedsOf, List.filterMap_append]
  rfl

/-- **What the issuer has published when a token is presented**: the key of the token, and after it
one key for each rotation. -/
theorem published_since {s₀ : IssuerProc cfg} {seed : List UInt8} {startNow : UInt64}
    {limiter : cfg.limiter.State}
    (hstart : IssuerProc.start cfg seed startNow limiter = .ok s₀) {h k : ServiceHistory}
    {s₁ s : Services cfg} (ht : Trace Services.step (.start s₀) h s₁)
    (hk : Trace Services.step s₁ k s)
    (hover : NonOverlappingAfter (issuerHistory h) (issuerHistory k))
    (hdistinct : (generatedKeys C seed (h ++ k)).Nodup)
    (hfree : C.CollisionFree { m | m ∈ generatedKeys C seed (h ++ k) }) :
    ∃ (older : Published) (time : UInt64) (more : Published),
      s.issuer.rot.Publishes cfg (older ++ (s₁.issuer.rot.current, time) :: more) ∧
      (Published.ids C (older ++ (s₁.issuer.rot.current, time) :: more)).Nodup ∧
      more.Follows s₁.issuer.rot.current.keyVersion ∧ more.length = rotations (issuerHistory k) ∧
      s₁.issuer.rot.current.From C (seedsOf seed (issuerHistory (h ++ k))) := by
  have htrace := Trace.append_iff.mpr ⟨s₁, ht, hk⟩
  obtain ⟨keys, hkeys, _, _⟩ := ledger_trace hstart htrace hdistinct hfree
  obtain ⟨keys₁, hgen⟩ := generatedFrom_trace hstart (issuer_trace ht)
  obtain ⟨more, hpub, hlen, _, hfollows⟩ :=
    publishes_since hstart (issuer_trace ht) hgen.publishes (issuer_trace hk) hover
  -- the keys of the ledger are these, as the records show
  have hids : (Published.ids C (keys₁ ++ more)).Nodup := by
    rw [hpub.ids_eq hkeys.publishes]
    exact hkeys.ids_nodup hfree
  obtain ⟨older, time, rfl⟩ := hgen.publishes.current
  rw [List.append_assoc, List.singleton_append] at hpub hids
  refine ⟨older, time, more, hpub, hids, hfollows, hlen, ?_⟩
  have hfrom : s₁.issuer.rot.current.From C (seedsOf seed (issuerHistory h)) :=
    hgen.published (s₁.issuer.rot.current, time) (by simp)
  rw [seedsOf_issuerHistory_append]
  exact hfrom.mono _

/-- A cached key with the id of a generated key is that key. -/
theorem cached_key_eq {s₀ : IssuerProc cfg} {seed : List UInt8} {startNow : UInt64}
    {limiter : cfg.limiter.State}
    (hstart : IssuerProc.start cfg seed startNow limiter = .ok s₀) {h : ServiceHistory}
    {s : Services cfg} (ht : Trace Services.step (.start s₀) h s)
    (hdistinct : (generatedKeys C seed h).Nodup)
    (hfree : C.CollisionFree { m | m ∈ generatedKeys C seed h }) {i : Nat} {ocfg : OriginConfig}
    {o : OriginState} (hrunning : s.origins i = some (ocfg, o)) {issuer : Issuer}
    (hfrom : issuer.From C (seedsOf seed (issuerHistory h))) {entry : KeyEntry}
    (hentry : o.keys (issuer.public.tokenKeyId C) = some entry) :
    entry.verifier.pk.key = issuer.pk := by
  obtain ⟨keys, hkeys, hagree, _⟩ := ledger_trace hstart ht hdistinct hfree
  obtain ⟨⟨key, hkey, rfl⟩, hid⟩ := (hagree.origins i ocfg o hrunning).cached _ _ hentry
  exact hfree (hkeys.published key hkey).pk_mem hfrom.pk_mem hid

/-- **The presentation half**: what became of the tokens of a batch that was signed at the end of
`h`, after a further run `k`. -/
theorem presented_granted_iff (hf : C.faest.Complete) (hp : C.pomfrit.Complete)
    {s₀ : IssuerProc cfg} {seed : List UInt8} {startNow : UInt64} {limiter : cfg.limiter.State}
    (hstart : IssuerProc.start cfg seed startNow limiter = .ok s₀)
    {h later k : ServiceHistory} {s₁ s : Services cfg}
    (ht : Trace Services.step (.start s₀) h s₁) (hk : Trace Services.step s₁ k s)
    {i : Nat} {ocfg : OriginConfig} {o₁ : OriginState} (hrunning : s₁.origins i = some (ocfg, o₁))
    (hpin : ocfg.ktLogPub = logSignerPublic C cfg.logSigner)
    (hiss : (utf8 ocfg.issuerName).length ≤ 65535) (horg : (utf8 ocfg.originInfo).length ≤ 65535)
    {header : String} (hchallenged : Challenged i h later header) {ch : TokenChallenge}
    (hparse : parseWwwAuthenticate header = .ok ch)
    (hover : NonOverlappingAfter (issuerHistory h) (issuerHistory k))
    (hwindow : (issued ocfg (originHistory i (later ++ k))).length < 64)
    (hdistinct : (generatedKeys C seed (h ++ k)).Nodup)
    (hfree : C.CollisionFree { m | m ∈ generatedKeys C seed (h ++ k) }) :
    ∃ o, s.origins i = some (ocfg, o) ∧ ∀ pair : Bytes 32 × Bytes 32,
      Unredeemed pair.1 (h ++ k) → ∀ ctx,
        ((o.resource C ocfg s.peers
            (some (authorization (mintedToken C s₁.issuer.rot.current ch pair))) ctx).2
            = .granted (mintedToken C s₁.issuer.rot.current ch pair) ↔
          (o.keys (s₁.issuer.rot.current.public.tokenKeyId C)).isSome = true ∨
            rotations (issuerHistory k) < 2 ^ 32) := by
  obtain ⟨o, ho⟩ := Services.config_trace hk hrunning
  have htrace := Trace.append_iff.mpr ⟨s₁, ht, hk⟩
  obtain ⟨older, time, more, hpub, hids, hfollows, hlen, hfrom⟩ :=
    published_since hstart ht hk hover hdistinct hfree
  obtain ⟨ch', hparse', hrecent, hctx⟩ := (hchallenged.append k).parsed htrace ho hiss horg
  rw [hparse] at hparse'
  cases hparse'
  refine ⟨o, ho, fun pair hun ctx => ?_⟩
  rw [← hlen]
  exact resource_granted_iff hf hp hpin hpub hids hfollows hfrom
    (fun entry => cached_key_eq hstart htrace hdistinct hfree ho hfrom) (hrecent hwindow) hctx
    (unspent_of_unredeemed htrace hun) ctx

/--
**From the challenge to the presentation.** The client has a key that is still current and a
challenge of an origin with names that fit. It reads the challenge, and once the attester has
accepted its evidence the batch is signed and it gets one token for each pair of random values. A
token that nobody has redeemed, presented after rotations that do not overlap and fewer than 64
further challenges, is answered with 200 exactly when the origin has its key already or fewer than
`2 ^ 32` rotations have completed.
-/
theorem minted_tokens_granted_iff (hf : C.faest.Complete) (hp : C.pomfrit.Complete)
    {s₀ : IssuerProc cfg} {seed : List UInt8} {startNow : UInt64} {limiter : cfg.limiter.State}
    (hstart : IssuerProc.start cfg seed startNow limiter = .ok s₀)
    {h later : ServiceHistory} {s₁ : Services cfg} (ht : Trace Services.step (.start s₀) h s₁)
    {pk : IssuerPublicKey} (hfetched : KeyFetched h pk)
    {i : Nat} {ocfg : OriginConfig} {o₁ : OriginState} (hrunning : s₁.origins i = some (ocfg, o₁))
    (hpin : ocfg.ktLogPub = logSignerPublic C cfg.logSigner)
    (hiss : (utf8 ocfg.issuerName).length ≤ 65535) (horg : (utf8 ocfg.originInfo).length ≤ 65535)
    {header : String} (hchallenged : Challenged i h later header)
    {a : Authorizer C}
    (hattester : C.faest.verifyingKeyFromBytes (C.faest.publicBytesFromSk a.signer)
      = some cfg.attesterPub)
    {coins : List (Bytes 32 × Bytes 32)} (hpos : 1 ≤ coins.length) (hlt : coins.length < 2 ^ 32) :
    ∃ ch req pending, parseWwwAuthenticate header = .ok ch ∧
      clientBeginRequest C pk ch coins = (req, pending) ∧
      ∀ x : Exchange, x.Honest a s₁.issuer req →
        ∃ response resp tokens s₂,
          a.handle cfg.json (authorizeBody x.eat req coins.length) x.iat = .ok response ∧
          s₁.step (x.signing req response resp).1 = some (s₂, (x.signing req response resp).2) ∧
          pending.finalize C pk resp = .ok tokens ∧ tokens.length = coins.length ∧
          ∀ k s, Trace Services.step s₂ k s →
            NonOverlappingAfter (issuerHistory (h ++ [x.signing req response resp]))
              (issuerHistory k) →
            (issued ocfg (originHistory i (later ++ k))).length < 64 →
            (generatedKeys C seed (h ++ [x.signing req response resp] ++ k)).Nodup →
            C.CollisionFree
              { m | m ∈ generatedKeys C seed (h ++ [x.signing req response resp] ++ k) } →
            ∃ o, s.origins i = some (ocfg, o) ∧
              ∀ t ∈ tokens, Unredeemed t.nonce (h ++ [x.signing req response resp] ++ k) →
                ∀ ctx, ((o.resource C ocfg s.peers (some (authorization t)) ctx).2 = .granted t ↔
                  (o.keys t.tokenKeyId).isSome = true ∨
                    rotations (issuerHistory k) < 2 ^ 32) := by
  have hpk := hfetched.current ht
  subst hpk
  obtain ⟨ch, hparse, _, _⟩ := hchallenged.parsed ht hrunning hiss horg
  obtain ⟨req, pending, hbegin⟩ : ∃ req pending,
      clientBeginRequest C s₁.issuer.rot.current.public ch coins = (req, pending) := ⟨_, _, rfl⟩
  refine ⟨ch, req, pending, hparse, hbegin, fun x hx => ?_⟩
  obtain ⟨response, resp, limiter, hhandle, hsign, hfinalize⟩ :=
    fetch_succeeds hf hattester hpos hlt hbegin hx
  have hstep := s₁.step_signing hsign
  refine ⟨response, resp, _, _, hhandle, hstep, hfinalize, List.length_map _, ?_⟩
  intro k s hk hover hwindow hdistinct hfree
  have hlater : originHistory i (later ++ [x.signing req response resp] ++ k)
      = originHistory i (later ++ k) := by
    rw [originHistory_append, originHistory_snoc_of_none (by rfl), ← originHistory_append]
  obtain ⟨o, ho, hgranted⟩ := presented_granted_iff hf hp hstart (.snoc ht hstep) hk
    hrunning hpin hiss horg
    (hchallenged.append [x.signing req response resp]) hparse hover (by rw [hlater]; exact hwindow)
    hdistinct hfree
  refine ⟨o, ho, fun t htoken hun ctx => ?_⟩
  obtain ⟨pair, _, rfl⟩ := List.mem_map.mp htoken
  exact hgranted pair hun ctx

/-! ## A concrete run -/

/-- The second key of the concrete issuer. -/
def fetchIssuer : Issuer := Issuer.generate Crypto.sample [2] 2

/-- The random values of a batch of one. -/
def fetchCoins : Bytes 32 × Bytes 32 :=
  (⟨List.replicate 32 8, by simp⟩, ⟨List.replicate 32 9, by simp⟩)

/-- What the client asks the issuer to sign. -/
def fetchRequest : SignRequest × PendingTokens Crypto.sample :=
  clientBeginRequest Crypto.sample fetchIssuer.public sampleChallenge [fetchCoins]

def fetchExchange : Exchange where
  eat := [1]
  measurement := .new "dev" [9]
  iat := 1000
  now := 1030
  limiterNow := 1030

/-- The authorization it gets. -/
def fetchAuthorization : IssuanceAuthorization :=
  fetchExchange.authorization sampleAuthorizer fetchRequest.1

/-- The concrete issuer, which can read that authorization. -/
def fetchConfig : IssuerConfig Crypto.sample := sampleConfig [fetchAuthorization]

/-- What happens after the challenge of the concrete origin: the issuer rotates, and the client
gets the new key. -/
def afterChallenge (response : RotateResponse) : ServiceHistory :=
  asServices (rotation "admin" [2] 2000 response ++ [(.keys, .keys fetchIssuer.public)])

/-- The run until the client has what it needs for its batch. -/
def fetchHistory (response : RotateResponse) : ServiceHistory :=
  sampleServicesHistory ++ afterChallenge response

theorem fetchHistory_challenged (response : RotateResponse) :
    Challenged 0 (fetchHistory response) (afterChallenge response)
      (wwwAuthenticate sampleChallenge.toBytes sampleIssuerKey) :=
  ⟨sampleServicesHistory.take 2, 0, none, some sampleContext, rfl⟩

theorem fetchHistory_keyFetched (response : RotateResponse) :
    KeyFetched (fetchHistory response) fetchIssuer.public :=
  ⟨sampleServicesHistory ++ asServices (rotation "admin" [2] 2000 response), [], by
    simp [fetchHistory, afterChallenge, asServices], rfl⟩

/-- The run exists, and its issuer can rotate on. -/
theorem fetchHistory_trace :
    ∃ response, ∃ s : Services fetchConfig,
      Trace Services.step (.start (sampleIssuer [fetchAuthorization])) (fetchHistory response) s ∧
      s.origins 0 = some (sampleOrigin, sampleOriginState) ∧ s.issuer.rot.current = fetchIssuer ∧
      CanRotate s.issuer "admin"
        [(Issuer.generate Crypto.sample [1] 1, 1000), (fetchIssuer, 2000)] := by
  obtain ⟨hpub, _⟩ := IssuerProc.start_publishes (sampleIssuer_start [fetchAuthorization])
  have hcan : CanRotate (sampleIssuer [fetchAuthorization]) "admin"
      [(Issuer.generate Crypto.sample [1] 1, 1000)] :=
    ⟨rfl, ⟨rfl, by decide⟩, rfl, hpub⟩
  obtain ⟨p, response, ht, hcurrent, hcan'⟩ := hcan.rotate (by decide) [2] 2000
  have hissuer : p.rot.current = fetchIssuer := hcurrent
  have hkeys : p.step .keys = some (p, .keys fetchIssuer.public) := by
    rw [← hissuer]
    rfl
  rw [hissuer] at hcan'
  exact ⟨response, _, Trace.append_iff.mpr
    ⟨_, sampleServices_trace [fetchAuthorization], trace_asServices (.snoc ht hkeys)⟩,
    sampleServices_origins, hissuer, hcan'⟩

theorem fetchExchange_honest {p : IssuerProc fetchConfig} :
    fetchExchange.Honest sampleAuthorizer p fetchRequest.1 where
  accepted := rfl
  json := by simp [fetchConfig, sampleConfig, AuthorizationJson.sample, fetchAuthorization]
  current := by decide
  quota := ⟨(), rfl⟩

/-- Its keys are the seeds, and signing generates none. -/
theorem fetchHistory_generatedKeys (rotated : RotateResponse) (req : SignRequest)
    (response : AuthorizeResponse) (resp : SignResponse)
    (k : List (IssuerEvent × IssuerReply)) :
    generatedKeys Crypto.sample [1]
        (fetchHistory rotated ++ [fetchExchange.signing req response resp] ++ asServices k)
      = [[1], [2]] ++ k.filterMap fun x => x.1.seed := by
  rw [generatedKeys, seedsOf_issuerHistory_append, issuerHistory_asServices]
  exact List.map_id _

/-- Nobody calls the redeemer in it. -/
theorem fetchHistory_unredeemed (nonce : Bytes 32) (rotated : RotateResponse) (req : SignRequest)
    (response : AuthorizeResponse) (resp : SignResponse)
    (k : List (IssuerEvent × IssuerReply)) :
    Unredeemed nonce
      (fetchHistory rotated ++ [fetchExchange.signing req response resp] ++ asServices k) := by
  intro y hy
  simp only [fetchHistory, afterChallenge, List.mem_append] at hy
  rcases hy with ((hy | hy) | hy) | hy
  · simp only [sampleServicesHistory, List.mem_cons, List.not_mem_nil, or_false] at hy
    rcases hy with rfl | rfl | rfl <;> simp [redeemNonce]
  · exact unredeemed_asServices nonce _ y hy
  · rw [List.mem_singleton.mp hy]
    simp [Exchange.signing, redeemNonce]
  · exact unredeemed_asServices nonce _ y hy

/-- The rotations that follow overlap with nothing, and no challenge comes with them. -/
theorem fetchHistory_rotations (rotated : RotateResponse) (req : SignRequest)
    (response : AuthorizeResponse) (resp : SignResponse) {coinsAt : Nat → List UInt8} {n : Nat}
    {k : List (IssuerEvent × IssuerReply)} (hk : Rotations "admin" coinsAt 3000 n k) :
    NonOverlappingAfter
        (issuerHistory (fetchHistory rotated ++ [fetchExchange.signing req response resp]))
        (issuerHistory (asServices k)) ∧
      rotations (issuerHistory (asServices k)) = n ∧
      issued sampleOrigin (originHistory 0 (afterChallenge rotated ++ asServices k)) = [] := by
  rw [issuerHistory_asServices]
  refine ⟨hk.nonOverlapping _, hk.rotations_eq, ?_⟩
  simp [afterChallenge, originHistory_append, issued]

theorem fetchHistory_parsed :
    parseWwwAuthenticate (wwwAuthenticate sampleChallenge.toBytes sampleIssuerKey)
      = .ok sampleChallenge :=
  parseWwwAuthenticate_wwwAuthenticate ⟨by decide, by decide, by decide⟩ sampleIssuerKey

/-- A batch of one is signed, the issuer rotates once more, and the token is granted. -/
theorem minted_tokens_granted_sample :
    ∃ (rotated : RotateResponse) (response : AuthorizeResponse) (resp : SignResponse)
      (k : ServiceHistory) (s : Services fetchConfig) (o : OriginState) (token : SpendToken),
      Trace Services.step (.start (sampleIssuer [fetchAuthorization]))
        (fetchHistory rotated ++ [fetchExchange.signing fetchRequest.1 response resp] ++ k) s ∧
      fetchRequest.2.finalize Crypto.sample fetchIssuer.public resp = .ok [token] ∧
      rotations (issuerHistory k) = 1 ∧ s.origins 0 = some (sampleOrigin, o) ∧
      ∀ ctx, (o.resource Crypto.sample sampleOrigin s.peers (some (authorization token)) ctx).2
        = .granted token := by
  obtain ⟨rotated, s₁, ht, hrunning, _, hcan⟩ := fetchHistory_trace
  obtain ⟨ch, req, pending, hparse, hbegin, hfetch⟩ :=
    minted_tokens_granted_iff Faest.sample_complete Pomfrit.sample_complete
      (sampleIssuer_start [fetchAuthorization]) ht (fetchHistory_keyFetched rotated) hrunning rfl
      (by decide) (by decide) (fetchHistory_challenged rotated)
      (show Crypto.sample.faest.verifyingKeyFromBytes
        (Crypto.sample.faest.publicBytesFromSk sampleAuthorizer.signer)
          = some fetchConfig.attesterPub from rfl)
      (show 1 ≤ [fetchCoins].length by decide) (by decide)
  rw [fetchHistory_parsed] at hparse
  cases hparse
  obtain ⟨rfl, rfl⟩ : req = fetchRequest.1 ∧ pending = fetchRequest.2 :=
    ⟨(congrArg Prod.fst hbegin).symm, (congrArg Prod.snd hbegin).symm⟩
  obtain ⟨response, resp, tokens, s₂, _, hstep, hfinalize, hlen, hgranted⟩ :=
    hfetch fetchExchange fetchExchange_honest
  obtain ⟨hcan₂, _⟩ := hcan.signing hstep
  obtain ⟨p, k, _, hrotations, hrotate, _⟩ := hcan₂.rotations (fun _ => [3]) 3000 1 (by decide)
  have hk := trace_asServices (s := s₂) hrotate
  obtain ⟨hover, hcount, hissued⟩ :=
    fetchHistory_rotations rotated fetchRequest.1 response resp hrotations
  have hkeys : generatedKeys Crypto.sample [1] (fetchHistory rotated ++
      [fetchExchange.signing fetchRequest.1 response resp] ++ asServices k)
      = [[1], [2], [3]] := by
    rw [fetchHistory_generatedKeys, hrotations.seeds_eq]
    rfl
  have hfree : Crypto.sample.CollisionFree { m | m ∈ generatedKeys Crypto.sample [1]
      (fetchHistory rotated ++ [fetchExchange.signing fetchRequest.1 response resp]
        ++ asServices k) } := by
    rw [hkeys]
    exact Crypto.collisionFree_of_list (fun m hm => hm) (by decide +kernel)
  obtain ⟨o, ho, htoken⟩ := hgranted _ _ hk hover
    (by rw [hissued]; decide) (by rw [hkeys]; decide) hfree
  obtain ⟨token, rfl⟩ := List.length_eq_one_iff.mp hlen
  refine ⟨_, _, _, _, _, o, token, Trace.append_iff.mpr ⟨_, .snoc ht hstep, hk⟩, hfinalize, hcount,
    ho, fun ctx => ?_⟩
  have hiff := htoken token (List.mem_singleton_self _)
    (fetchHistory_unredeemed token.nonce _ _ _ _ _) ctx
  exact hiff.mpr (.inr (by rw [hcount]; decide))

/-- The key of the token is found in the log, with version 2. -/
theorem fetchIssuer_findRecord {s : Services fetchConfig} {more : Published}
    (hpub : s.issuer.rot.Publishes fetchConfig
      ([(Issuer.generate Crypto.sample [1] 1, 1000), (fetchIssuer, 2000)] ++ more)) :
    findRecord (s.issuer.rot.kt fetchConfig).records (fetchIssuer.public.tokenKeyId Crypto.sample)
      = some (KeyRecord.ofKey Crypto.sample 1 fetchIssuer.public 2000) := by
  have hrecords : (s.issuer.rot.kt fetchConfig).records
      = [KeyRecord.ofKey Crypto.sample 0 sampleIssuerKey 1000,
        KeyRecord.ofKey Crypto.sample 1 fetchIssuer.public 2000]
        ++ recordsFrom Crypto.sample 2 more.publicKeys :=
    hpub.records
  have hfirst : findRecord [KeyRecord.ofKey Crypto.sample 0 sampleIssuerKey 1000,
      KeyRecord.ofKey Crypto.sample 1 fetchIssuer.public 2000]
      (fetchIssuer.public.tokenKeyId Crypto.sample)
      = some (KeyRecord.ofKey Crypto.sample 1 fetchIssuer.public 2000) := by
    decide +kernel
  rw [hrecords, findRecord, List.find?_append]
  rw [findRecord] at hfirst
  rw [hfirst, Option.some_or]

/-- The seeds of the rotations that follow. -/
def laterSeed (n : Nat) : List UInt8 := leBytes 8 n

theorem laterSeed_nodup : ([[1], [2]] ++ (List.range (2 ^ 32)).map laterSeed).Nodup := by
  refine List.nodup_append.mpr ⟨by decide, ?_, ?_⟩
  · refine List.Nodup.map_on ?_ List.nodup_range
    intro m hm n hn heq
    have hlt : ∀ i ∈ List.range (2 ^ 32), i < 256 ^ 8 := fun i hi =>
      lt_trans (List.mem_range.mp hi) (by decide)
    exact leBytes_inj (hlt m hm) (hlt n hn) heq
  · intro a ha b hb heq
    obtain ⟨n, _, rfl⟩ := List.mem_map.mp hb
    have hlen : a.length = 8 := by
      rw [heq]
      exact leBytes_length 8 n
    rcases List.mem_cons.mp ha with rfl | ha
    · exact absurd hlen (by decide)
    · rw [List.mem_singleton.mp ha] at hlen
      exact absurd hlen (by decide)

/-- The token of the batch. -/
def fetchToken : SpendToken := mintedToken Crypto.sample fetchIssuer sampleChallenge fetchCoins

/-- The origin refuses it when the last rotation has taken version 2 again. -/
theorem fetchToken_refused {s : Services fetchConfig} {more : Published}
    (hpub : s.issuer.rot.Publishes fetchConfig
      ([(Issuer.generate Crypto.sample [1] 1, 1000), (fetchIssuer, 2000)] ++ more))
    (hversion : s.issuer.rot.current.keyVersion = 2)
    (hkey : s.issuer.rot.current.pk = laterSeed (2 ^ 32 - 1)) (ctx : Option (Bytes 32)) :
    (sampleOriginState.resource Crypto.sample sampleOrigin s.peers
      (some (authorization fetchToken)) ctx).2 = OriginState.unknownKey := by
  have hparse : parseAuthorization (authorization fetchToken) = .ok fetchToken :=
    parseAuthorization_authorization
      (verify_mintedToken Crypto.sample Pomfrit.sample_complete [2] 2 sampleChallenge fetchCoins).2
  -- the origin has cached only the key it was started with
  have hmiss : sampleOriginState.keys (fetchIssuer.public.tokenKeyId Crypto.sample) = none := by
    decide +kernel
  have hserved : s.peers.keysVersion 2 = some s.issuer.rot.current.public := by
    rw [← hversion]
    exact hpub.history_current
  have hother : s.issuer.rot.current.public.tokenKeyId Crypto.sample
      ≠ fetchIssuer.public.tokenKeyId Crypto.sample := by
    show Crypto.sample.sha256 s.issuer.rot.current.pk ≠ Crypto.sample.sha256 [2]
    rw [hkey]
    decide +kernel
  have hrefused : (sampleOriginState.keyFor Crypto.sample sampleOrigin s.peers
      fetchToken.tokenKeyId).2
      = .err "/keys/2 token_key_id disagrees with the transparency log" := by
    rw [OriginState.keyFor_snd, fetchToken, mintedToken_tokenKeyId, hmiss]
    show resolveViaKt _ _ _ s.peers.kt s.peers.keysVersion = _
    rw [resolveViaKt_of_findRecord Faest.sample_complete rfl hpub (fetchIssuer_findRecord hpub)]
    show OriginState.fetchKey _ _ s.peers 2 = _
    rw [OriginState.fetchKey, hserved, Outcome.ofOption_some, Outcome.ok_bind,
      acceptKey_eq_err hother]
    rfl
  exact OriginState.resource_eq_unknownKey hparse hrefused ctx

/--
After `2 ^ 32` rotations `/keys/2` answers with the last key and no longer with the one of the
token. The origin has not seen that key before and refuses the token.
-/
theorem wrapped_version_loses_tokens :
    ∃ (rotated : RotateResponse) (response : AuthorizeResponse) (resp : SignResponse)
      (k : ServiceHistory) (s : Services fetchConfig) (o : OriginState),
      KeyFetched (fetchHistory rotated) fetchIssuer.public ∧
      (∃ header, Challenged 0 (fetchHistory rotated) (afterChallenge rotated) header ∧
        parseWwwAuthenticate header = .ok sampleChallenge) ∧
      sampleAuthorizer.handle fetchConfig.json (authorizeBody [1] fetchRequest.1 1) 1000
        = .ok response ∧
      fetchRequest.2.finalize Crypto.sample fetchIssuer.public resp = .ok [fetchToken] ∧
      Trace Services.step (.start (sampleIssuer [fetchAuthorization]))
        (fetchHistory rotated ++ [fetchExchange.signing fetchRequest.1 response resp] ++ k) s ∧
      NonOverlappingAfter (issuerHistory (fetchHistory rotated ++
        [fetchExchange.signing fetchRequest.1 response resp])) (issuerHistory k) ∧
      rotations (issuerHistory k) = 2 ^ 32 ∧
      issued sampleOrigin (originHistory 0 (afterChallenge rotated ++ k)) = [] ∧
      (generatedKeys Crypto.sample [1] (fetchHistory rotated ++
        [fetchExchange.signing fetchRequest.1 response resp] ++ k)).Nodup ∧
      Unredeemed fetchToken.nonce (fetchHistory rotated ++
        [fetchExchange.signing fetchRequest.1 response resp] ++ k) ∧
      s.origins 0 = some (sampleOrigin, o) ∧
      ∀ ctx, (o.resource Crypto.sample sampleOrigin s.peers (some (authorization fetchToken)) ctx).2
        = OriginState.unknownKey := by
  obtain ⟨rotated, s₁, ht, hrunning, hcurrent, hcan⟩ := fetchHistory_trace
  have hbegin : clientBeginRequest Crypto.sample s₁.issuer.rot.current.public sampleChallenge
      [fetchCoins] = (fetchRequest.1, fetchRequest.2) := by
    rw [hcurrent]
    rfl
  obtain ⟨response, resp, limiter, hhandle, hsign, hfinalize⟩ :=
    fetch_succeeds Faest.sample_complete (s := s₁.issuer) (a := sampleAuthorizer) rfl (by decide)
      (by decide) hbegin fetchExchange_honest
  rw [hcurrent] at hfinalize
  have hstep := s₁.step_signing hsign
  obtain ⟨hcan₂, _⟩ := hcan.signing hstep
  -- the number of rotations is never computed with: the run exists by induction
  obtain ⟨p, k, more, hrotations, hrotate, hcan₃, _, hversion, hkey⟩ :=
    hcan₂.rotations laterSeed 3000 (2 ^ 32) (by decide)
  have hk := trace_asServices hrotate
  obtain ⟨hover, hcount, hissued⟩ :=
    fetchHistory_rotations rotated fetchRequest.1 response resp hrotations
  refine ⟨rotated, response, resp, asServices k, _, sampleOriginState,
    fetchHistory_keyFetched rotated, ⟨_, fetchHistory_challenged rotated, fetchHistory_parsed⟩,
    hhandle, hfinalize, Trace.append_iff.mpr ⟨_, .snoc ht hstep, hk⟩, hover, hcount, hissued, ?_,
    fetchHistory_unredeemed _ _ _ _ _ _, hrunning, ?_⟩
  · rw [fetchHistory_generatedKeys, hrotations.seeds_eq]
    exact laterSeed_nodup
  · refine fetchToken_refused hcan₃.publishes ?_ (hkey (by decide))
    rw [hversion]
    show s₁.issuer.rot.current.keyVersion + 0 = 2
    rw [hcurrent]
    rfl

end EatPass
