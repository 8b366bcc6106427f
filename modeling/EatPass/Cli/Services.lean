import EatPass.Infra.Trace
import EatPass.Cli.Issuer
import EatPass.Cli.Origin

/-!
# The services together

One issuer, one central redeemer with the in-memory store, and any number of origins that start at
any time. The issuer and the redeemer answer honestly, and the network is slow and lossy: a request
that waits for the issuer may be handed any answer that the issuer has ever given to that
question, or none; a redeemer's answer may come late or be lost. Anybody may call `/redeem`.
-/

namespace EatPass

open Infra

variable {C : Crypto}

/-- The three services and what is on its way between them. -/
structure Services (cfg : IssuerConfig C) where
  issuer : IssuerProc cfg
  /-- The answers the issuer has given. -/
  served : List (IssuerEvent × IssuerReply)
  origins : Nat → Option (OriginConfig × OriginState)
  redeemer : InMemorySpentStore
  /-- The redeemer's answers on their way back, by origin and request. -/
  answers : Nat × Nat → Option StatusCode

inductive ServiceEvent where
  | issuer (e : IssuerEvent)
  /-- An origin starts, with an answer of `/keys`. -/
  | startOrigin (i : Nat) (cfg : OriginConfig) (pk : IssuerPublicKey)
  | origin (i : Nat) (e : OriginEvent)
  /-- The redeemer handles the body a request has sent. -/
  | redeem (i task : Nat) (body : RedeemBody)
  /-- The redeemer is called by somebody else. -/
  | strangeRedeem (body : RedeemBody)

inductive ServiceReply where
  | issuer (r : IssuerReply)
  | started
  | origin (r : OriginReply)
  | redeem (r : Reply Unit)

namespace Services

variable {cfg : IssuerConfig C}

/-- The services when the issuer starts to serve. -/
def start (issuer : IssuerProc cfg) : Services cfg where
  issuer := issuer
  served := []
  origins _ := none
  redeemer := .new
  answers _ := none

/-- The answer an origin's event brings was given by the service it was asked from. -/
def delivers (s : Services cfg) (i : Nat) (o : OriginState) : OriginEvent → Bool
  | .ktAnswer _ (some kt) => (IssuerEvent.kt, IssuerReply.kt kt) ∈ s.served
  | .keyAnswer task (some pk) =>
    match o.tasks task with
    | some (.fetchingKey _ version) =>
      (IssuerEvent.keysVersion version, IssuerReply.keysVersion (.ok pk)) ∈ s.served
    | _ => false
  | .redeemAnswer task (some code) => s.answers (i, task) = some code
  | _ => true

/-- An answer is used up by the request it was for. -/
def answersAfter (s : Services cfg) (i : Nat) : OriginEvent → Nat × Nat → Option StatusCode
  | .redeemAnswer task _ => Function.update s.answers (i, task) none
  | _ => s.answers

/-- The body that arrives says what was sent. The text of the nonce may be in another case. -/
def sameSpend (sent arrived : RedeemBody) : Bool :=
  arrived.keyEpoch = sent.keyEpoch ∧ arrived.readNonce = sent.readNonce

/-- One step of the services. -/
def step (s : Services cfg) : ServiceEvent → Option (Services cfg × ServiceReply)
  | .issuer e =>
    (s.issuer.step e).map fun (issuer, r) =>
      ({ s with issuer, served := s.served ++ [(e, r)] }, .issuer r)
  | .startOrigin i ocfg pk =>
    if (s.origins i).isNone ∧ (IssuerEvent.keys, IssuerReply.keys pk) ∈ s.served then
      some ({ s with origins := Function.update s.origins i (some (ocfg, .start C pk)) }, .started)
    else none
  | .origin i e =>
    match s.origins i with
    | none => none
    | some (ocfg, o) =>
      if s.delivers i o e then
        (o.step C ocfg e).map fun (o', r) =>
          ({ s with
              origins := Function.update s.origins i (some (ocfg, o'))
              answers := s.answersAfter i e }, .origin r)
      else none
  | .redeem i task body =>
    match s.origins i with
    | none => none
    | some (_, o) =>
      match o.tasks task with
      | some (.redeeming _ sent) =>
        if s.answers (i, task) = none ∧ sameSpend sent body then
          let (redeemer, r) := EatPass.redeem inMemorySpentStore s.redeemer body
          some ({ s with redeemer, answers := Function.update s.answers (i, task) r.status },
            .redeem r)
        else none
      | _ => none
  | .strangeRedeem body =>
    let (redeemer, r) := EatPass.redeem inMemorySpentStore s.redeemer body
    some ({ s with redeemer }, .redeem r)

/-! ## What a step can do -/

/-- Everything a step can do, with the step of the service it is about. -/
inductive StepKind (s s' : Services cfg) (e : ServiceEvent) (r : ServiceReply) : Prop
  | issuer (ie : IssuerEvent) (ir : IssuerReply) (event : e = .issuer ie) (reply : r = .issuer ir)
      (step : s.issuer.step ie = some (s'.issuer, ir))
      (served : s'.served = s.served ++ [(ie, ir)]) (origins : s'.origins = s.origins)
      (redeemer : s'.redeemer = s.redeemer) (answers : s'.answers = s.answers)
  | startOrigin (i : Nat) (ocfg : OriginConfig) (pk : IssuerPublicKey)
      (event : e = .startOrigin i ocfg pk) (reply : r = .started) (free : s.origins i = none)
      (mem : (IssuerEvent.keys, IssuerReply.keys pk) ∈ s.served)
      (issuer : s'.issuer = s.issuer) (served : s'.served = s.served)
      (origins : s'.origins = Function.update s.origins i (some (ocfg, .start C pk)))
      (redeemer : s'.redeemer = s.redeemer) (answers : s'.answers = s.answers)
  | origin (i : Nat) (ocfg : OriginConfig) (o o' : OriginState) (oe : OriginEvent)
      (or : OriginReply) (event : e = .origin i oe) (reply : r = .origin or)
      (running : s.origins i = some (ocfg, o)) (honest : s.delivers i o oe = true)
      (step : o.step C ocfg oe = some (o', or))
      (issuer : s'.issuer = s.issuer) (served : s'.served = s.served)
      (origins : s'.origins = Function.update s.origins i (some (ocfg, o')))
      (redeemer : s'.redeemer = s.redeemer) (answers : s'.answers = s.answersAfter i oe)
  | redeem (i task : Nat) (body sent : RedeemBody) (ocfg : OriginConfig) (o : OriginState)
      (token : SpendToken) (event : e = .redeem i task body)
      (running : s.origins i = some (ocfg, o)) (at_ : o.tasks task = some (.redeeming token sent))
      (unanswered : s.answers (i, task) = none) (same : sameSpend sent body = true)
      (reply : r = .redeem (EatPass.redeem inMemorySpentStore s.redeemer body).2)
      (issuer : s'.issuer = s.issuer) (served : s'.served = s.served)
      (origins : s'.origins = s.origins)
      (redeemer : s'.redeemer = (EatPass.redeem inMemorySpentStore s.redeemer body).1)
      (answers : s'.answers = Function.update s.answers (i, task)
        (Reply.status (EatPass.redeem inMemorySpentStore s.redeemer body).2))
  | strangeRedeem (body : RedeemBody) (event : e = .strangeRedeem body)
      (reply : r = .redeem (EatPass.redeem inMemorySpentStore s.redeemer body).2)
      (issuer : s'.issuer = s.issuer) (served : s'.served = s.served)
      (origins : s'.origins = s.origins)
      (redeemer : s'.redeemer = (EatPass.redeem inMemorySpentStore s.redeemer body).1)
      (answers : s'.answers = s.answers)

theorem step_cases {s s' : Services cfg} {e : ServiceEvent} {r : ServiceReply}
    (h : s.step e = some (s', r)) : StepKind s s' e r := by
  cases e with
  | issuer ie =>
    obtain ⟨⟨issuer, ir⟩, hstep, heq⟩ := Option.map_eq_some_iff.mp h
    cases heq
    exact .issuer ie ir rfl rfl hstep rfl rfl rfl rfl
  | startOrigin i ocfg pk =>
    simp only [step] at h
    split at h
    · next hguard =>
      cases h
      exact .startOrigin i ocfg pk rfl rfl (Option.isNone_iff_eq_none.mp hguard.1) hguard.2 rfl rfl
        rfl rfl rfl
    · cases h
  | origin i oe =>
    simp only [step] at h
    split at h
    · cases h
    · next ocfg o hrunning =>
      split at h
      · next hhonest =>
        obtain ⟨⟨o', or⟩, hstep, heq⟩ := Option.map_eq_some_iff.mp h
        cases heq
        exact .origin i ocfg o o' oe or rfl rfl hrunning hhonest hstep rfl rfl rfl rfl rfl
      · cases h
  | redeem i task body =>
    simp only [step] at h
    split at h
    · cases h
    · next ocfg o hrunning =>
      split at h
      · next token sent hat =>
        split at h
        · next hguard =>
          cases h
          exact .redeem i task body sent ocfg o token rfl hrunning hat hguard.1 hguard.2 rfl rfl
            rfl rfl rfl rfl
        · cases h
      · cases h
  | strangeRedeem body =>
    cases h
    exact .strangeRedeem body rfl rfl rfl rfl rfl rfl rfl

/-! ## Presenting a token -/

theorem step_startOrigin {s : Services cfg} {i : Nat} {pk : IssuerPublicKey}
    (hfree : s.origins i = none) (hmem : (IssuerEvent.keys, IssuerReply.keys pk) ∈ s.served)
    (ocfg : OriginConfig) :
    s.step (.startOrigin i ocfg pk) = some ({ s with
      origins := Function.update s.origins i (some (ocfg, .start C pk)) }, .started) := by
  simp only [step, hfree, Option.isNone_none, hmem, and_self, if_true]

theorem step_origin {s : Services cfg} {i : Nat} {ocfg : OriginConfig} {o o' : OriginState}
    {e : OriginEvent} {r : OriginReply} (hrunning : s.origins i = some (ocfg, o))
    (hdelivers : s.delivers i o e = true) (hstep : o.step C ocfg e = some (o', r)) :
    s.step (.origin i e) = some ({ s with
      origins := Function.update s.origins i (some (ocfg, o'))
      answers := s.answersAfter i e }, .origin r) := by
  simp only [step, hrunning, hdelivers, if_true, hstep, Option.map_some]

theorem step_redeem {s : Services cfg} {i task : Nat} {ocfg : OriginConfig} {o : OriginState}
    {token : SpendToken} {body : RedeemBody} (hrunning : s.origins i = some (ocfg, o))
    (hat : o.tasks task = some (.redeeming token body)) (hnone : s.answers (i, task) = none) :
    s.step (.redeem i task body) = some ({ s with
      redeemer := (EatPass.redeem inMemorySpentStore s.redeemer body).1
      answers := Function.update s.answers (i, task)
        (Reply.status (EatPass.redeem inMemorySpentStore s.redeemer body).2) },
      .redeem (EatPass.redeem inMemorySpentStore s.redeemer body).2) := by
  have hsame : sameSpend body body = true := by simp [sameSpend]
  simp only [step, hrunning, hat, hnone, hsame, and_self, if_true]

/-- The steps of a request with a token whose key is cached, when it is granted. -/
def presentation (i task : Nat) (header : String) (ctx : Option (Bytes 32)) (token : SpendToken)
    (epoch : UInt32) : List (ServiceEvent × ServiceReply) :=
  [(.origin i (.request task (some header) ctx), .origin .working),
    (.origin i (.check task), .origin .working),
    (.redeem i task (spendBody epoch token.nonce), .redeem (.ok ())),
    (.origin i (.redeemAnswer task (some .ok)), .origin (.granted token))]

/-- **A token that passes the checks and is not spent is granted.** -/
theorem presentation_trace {s : Services cfg} {i task : Nat} {ocfg : OriginConfig}
    {o : OriginState} {header : String} {token : SpendToken} {entry : KeyEntry}
    (hrunning : s.origins i = some (ocfg, o)) (hfree : o.tasks task = none)
    (hnone : s.answers (i, task) = none) (hparse : parseAuthorization header = .ok token)
    (hkey : o.keys token.tokenKeyId = some entry)
    (hcheck : checkToken C ocfg o.recentChallenges entry token = .ok token.nonce)
    (hunspent : (entry.epoch, token.nonce) ∉ s.redeemer.seen) (ctx : Option (Bytes 32)) :
    ∃ s', Trace Services.step s (presentation i task header ctx token entry.epoch) s' := by
  let body := spendBody entry.epoch token.nonce
  let o₁ := o.setTask task (some (.keyed token entry))
  let o₂ := o₁.setTask task (some (.redeeming token body))
  let s₁ : Services cfg := { s with origins := Function.update s.origins i (some (ocfg, o₁)) }
  let s₂ : Services cfg := { s₁ with origins := Function.update s₁.origins i (some (ocfg, o₂)) }
  let s₃ : Services cfg := { s₂ with
    redeemer := ⟨insert (entry.epoch, token.nonce) s.redeemer.seen⟩
    answers := Function.update s.answers (i, task) (some .ok) }
  have hrequest : s.step (.origin i (.request task (some header) ctx))
      = some (s₁, .origin .working) :=
    step_origin hrunning rfl (OriginState.step_request_hit hfree hparse hkey ctx)
  have hpassed : s₁.step (.origin i (.check task)) = some (s₂, .origin .working) :=
    step_origin (Function.update_self ..) rfl
      (OriginState.step_check_passed (OriginState.setTask_tasks _ task _) hcheck)
  have hredeem : s₂.step (.redeem i task body) = some (s₃, .redeem (.ok ())) := by
    have hcall : EatPass.redeem inMemorySpentStore s₂.redeemer body
        = (⟨insert (entry.epoch, token.nonce) s.redeemer.seen⟩, .ok ()) :=
      redeem_spendBody hunspent
    rw [step_redeem (s := s₂) (Function.update_self ..) (OriginState.setTask_tasks _ task _) hnone,
      hcall]
    rfl
  have hanswer := step_origin (s := s₃) (e := .redeemAnswer task (some .ok))
    (Function.update_self ..) (by simp [delivers, s₃])
    (OriginState.step_redeemAnswer_ok (OriginState.setTask_tasks _ task _))
  exact ⟨_, .snoc (.snoc (.snoc (.snoc .init hrequest) hpassed) hredeem) hanswer⟩

end Services

end EatPass
