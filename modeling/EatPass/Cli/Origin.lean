import Mathlib.Logic.Function.Basic
import EatPass.Infra.Trace
import EatPass.Core.Http
import EatPass.Core.LogChecks
import EatPass.Cli.Redeemer

/-!
# The origin process

`cli/src/origin.rs` as a state machine. A request to `/resource` waits up to three times for
another service: for the log and the key of a `token_key_id` it does not know, and for the
redeemer. Between two waits it is one step; a request in flight is part of the state
(`ResourceTask`), and steps of other requests may come between its own. The answers of the other
services are arguments of the events, so nothing is said here about who gives them.

`OriginState.step_cases` says everything a step can do.
-/

namespace EatPass

open Infra

/-- What a start of the origin is configured with. -/
structure OriginConfig where
  profile : Profile
  issuerName : String
  originInfo : String
  requireRedemptionContext : Bool
  /-- The pinned key of the transparency log. -/
  ktLogPub : Bytes 32

/-- A verifier for one issuer key, and the epoch its spends go to. -/
structure KeyEntry where
  verifier : Verifier
  epoch : UInt32
deriving DecidableEq

/-- How far a request with a token is. -/
inductive ResourceTask where
  /-- It waits for `/kt`. -/
  | fetchingKt (token : SpendToken)
  /-- It waits for `/keys/{version}`. -/
  | fetchingKey (token : SpendToken) (version : UInt32)
  /-- `key_for` has returned. -/
  | keyed (token : SpendToken) (entry : KeyEntry)
  /-- It waits for `/redeem`. -/
  | redeeming (token : SpendToken) (body : RedeemBody)
deriving DecidableEq

/-- `OriginState`, with the requests in flight. -/
structure OriginState where
  advertisedPk : IssuerPublicKey
  recentChallenges : List TokenChallenge
  keys : Bytes 32 → Option KeyEntry
  tasks : Nat → Option ResourceTask

/-- What an answer shows. The token of an access that is granted is named, so that it can be told
which one it was. -/
inductive OriginReply where
  | working
  /-- 401 and the `WWW-Authenticate` header. -/
  | challenge (wwwAuthenticate : String)
  /-- 200. -/
  | granted (token : SpendToken)
  | refused (status : StatusCode) (text : String)
  | panic
deriving DecidableEq

variable (C : Crypto) (cfg : OriginConfig)

/-- The state `run` builds from the key that `/keys` answers with. -/
def OriginState.start (pk : IssuerPublicKey) : OriginState where
  advertisedPk := pk
  recentChallenges := []
  keys := Function.update (fun _ => none) (pk.tokenKeyId C) (some ⟨⟨pk⟩, pk.keyVersion⟩)
  tasks _ := none

theorem OriginState.start_keys_eq_some {pk : IssuerPublicKey} {id : Bytes 32} {entry : KeyEntry} :
    (OriginState.start C pk).keys id = some entry ↔
      id = pk.tokenKeyId C ∧ entry = ⟨⟨pk⟩, pk.keyVersion⟩ := by
  simp only [OriginState.start, Function.update_apply]
  split
  · next h => simp [h, eq_comm]
  · next h => simp [h]

/-! ## Challenges -/

def maxRecentChallenges : Nat := 64

/-- Keeps the last `maxRecentChallenges` challenges. -/
def pushRecent (recent : List TokenChallenge) (ch : TokenChallenge) : List TokenChallenge :=
  let recent := recent ++ [ch]
  recent.drop (recent.length - maxRecentChallenges)

/-- The challenge `issue_fresh_challenge` makes. `ctx` is what the random generator gives. -/
def freshChallenge (ctx : Option (Bytes 32)) : Outcome String TokenChallenge :=
  let ch := TokenChallenge.new cfg.issuerName cfg.originInfo
  if cfg.requireRedemptionContext then do
    let ctx ← Outcome.ofOption "redemption context" ctx
    return ch.withRedemptionContext ctx
  else .ok ch

/-- `challenge_response`. -/
def OriginState.challengeResponse (s : OriginState) (ctx : Option (Bytes 32)) :
    OriginState × OriginReply :=
  match freshChallenge cfg ctx with
  | .ok ch =>
    ({ s with recentChallenges := pushRecent s.recentChallenges ch },
      .challenge (wwwAuthenticate ch.toBytes s.advertisedPk))
  | .err e => (s, .refused .internalServerError ("could not issue challenge: " ++ e ++ "\n"))
  | .panic => (s, .panic)

/-- `challenge_for_digest`. -/
def challengeForDigest (recent : List TokenChallenge) (digest : Bytes 32) :
    Option TokenChallenge :=
  recent.find? fun ch => ch.digest C = digest

/-! ## Keys -/

/-- The first half of `resolve_via_kt`: the log is checked, and the record is looked up. -/
def lookupKt (tkid : Bytes 32) (kt : KtResponse) : Outcome String (Option KeyRecord) := do
  Outcome.require (kt.servedPub = cfg.ktLogPub.val)
    ("kt log pubkey " ++ kt.logPub ++ " does not match the pinned key "
      ++ String.ofList (Hex.encode cfg.ktLogPub.val))
  (verifyLog C cfg.profile cfg.ktLogPub kt.records kt.signedHead).mapErr fun e =>
    "kt log does not verify under pinned key: " ++ e.message
  return findRecord kt.records tkid

/-- The second half of `resolve_via_kt`: the key that was served for the version. -/
def acceptKey (tkid : Bytes 32) (version : UInt32) (pk : IssuerPublicKey) :
    Outcome String KeyEntry := do
  Outcome.require (pk.tokenKeyId C = tkid)
    ("/keys/" ++ toString version ++ " token_key_id disagrees with the transparency log")
  return { verifier := ⟨pk⟩, epoch := pk.keyVersion }

/-- `resolve_via_kt`, given what `/kt` and `/keys/{version}` answer. -/
def resolveViaKt (tkid : Bytes 32) (kt : Option KtResponse)
    (served : UInt32 → Option IssuerPublicKey) : Outcome String (Option KeyEntry) := do
  let kt ← Outcome.ofOption "/kt" kt
  match ← lookupKt C cfg tkid kt with
  | none => return none
  | some rec =>
    let pk ← Outcome.ofOption "/keys" (served rec.keyVersion)
    let entry ← acceptKey C tkid rec.keyVersion pk
    return some entry

/-! ## Requests -/

/-- What `resource` checks between `key_for` and `spend_centrally`. -/
def checkToken (recent : List TokenChallenge) (entry : KeyEntry) (token : SpendToken) :
    Outcome String (Bytes 32) := do
  let challenge ← Outcome.ofOption
    "token challenge unknown or expired (mint against a fresh WWW-Authenticate)\n"
    (challengeForDigest C recent token.challengeDigest)
  Outcome.require (cfg.requireRedemptionContext = true → challenge.hasRedemptionContext = true)
    "origin requires a 32-byte redemption context on the challenge\n"
  (entry.verifier.verify C token challenge).mapErr fun e =>
    "token rejected: " ++ e.message ++ "\n"

/-- What can happen next at an origin. A request is named, so that its steps can be told apart. -/
inductive OriginEvent where
  /-- A request with its `Authorization` header. The random value is for a fresh challenge. -/
  | request (task : Nat) (header : Option String) (ctx : Option (Bytes 32))
  /-- `/kt` has answered; `none` is an error or a body that does not decode. -/
  | ktAnswer (task : Nat) (answer : Option KtResponse)
  /-- `/keys/{version}` has answered. -/
  | keyAnswer (task : Nat) (answer : Option IssuerPublicKey)
  | check (task : Nat)
  /-- `/redeem` has answered; `none` is an answer that was lost. -/
  | redeemAnswer (task : Nat) (answer : Option StatusCode)
deriving DecidableEq

namespace OriginState

def setTask (s : OriginState) (task : Nat) (t : Option ResourceTask) : OriginState :=
  { s with tasks := Function.update s.tasks task t }

/-- `key_for` gives `None`. -/
def unknownKey : OriginReply :=
  .refused .forbidden "token signed by an unknown or unaccepted issuer key\n"

/-- What the services that a request asks will answer. -/
structure Peers where
  kt : Option KtResponse
  keysVersion : UInt32 → Option IssuerPublicKey
  redeem : RedeemBody → Option StatusCode

/-- `key_for`. -/
def keyFor (s : OriginState) (peers : Peers) (tkid : Bytes 32) :
    OriginState × Outcome String (Option KeyEntry) :=
  match s.keys tkid with
  | some entry => (s, .ok (some entry))
  | none =>
    match resolveViaKt C cfg tkid peers.kt peers.keysVersion with
    | .ok (some entry) =>
      ({ s with keys := Function.update s.keys tkid (some entry) }, .ok (some entry))
    | result => (s, result)

/-- `resource`, from the beginning to the end, when nothing else happens meanwhile. -/
def resource (s : OriginState) (peers : Peers) (header : Option String)
    (ctx : Option (Bytes 32)) : OriginState × OriginReply :=
  match header.map parseAuthorization with
  | none => s.challengeResponse cfg ctx
  | some (.err _) => s.challengeResponse cfg ctx
  | some .panic => (s, .panic)
  | some (.ok token) =>
    match s.keyFor C cfg peers token.tokenKeyId with
    | (s, .panic) => (s, .panic)
    | (s, .err _) => (s, unknownKey)
    | (s, .ok none) => (s, unknownKey)
    | (s, .ok (some entry)) =>
      match checkToken C cfg s.recentChallenges entry token with
      | .panic => (s, .panic)
      | .err text => (s, .refused .forbidden text)
      | .ok nonce =>
        if peers.redeem (spendBody entry.epoch nonce) = some .ok then (s, .granted token)
        else (s, .refused .conflict "token already spent (double-spend)\n")

/-- One step. `none`: the event names a request that is not at that point. -/
def step (s : OriginState) : OriginEvent → Option (OriginState × OriginReply)
  | .request task header ctx =>
    if s.tasks task = none then
      match header.map parseAuthorization with
      | none => some (s.challengeResponse cfg ctx)
      | some (.err _) => some (s.challengeResponse cfg ctx)
      | some .panic => some (s, .panic)
      | some (.ok token) =>
        match s.keys token.tokenKeyId with
        | some entry => some (s.setTask task (some (.keyed token entry)), .working)
        | none => some (s.setTask task (some (.fetchingKt token)), .working)
    else none
  | .ktAnswer task answer =>
    match s.tasks task with
    | some (.fetchingKt token) =>
      match Outcome.ofOption "/kt" answer >>= lookupKt C cfg token.tokenKeyId with
      | .ok (some rec) => some (s.setTask task (some (.fetchingKey token rec.keyVersion)), .working)
      | .ok none => some (s.setTask task none, unknownKey)
      | .err _ => some (s.setTask task none, unknownKey)
      | .panic => some (s.setTask task none, .panic)
    | _ => none
  | .keyAnswer task answer =>
    match s.tasks task with
    | some (.fetchingKey token version) =>
      match Outcome.ofOption "/keys" answer >>= acceptKey C token.tokenKeyId version with
      | .ok entry =>
        some ({ s with keys := Function.update s.keys token.tokenKeyId (some entry) }.setTask task
          (some (.keyed token entry)), .working)
      | .err _ => some (s.setTask task none, unknownKey)
      | .panic => some (s.setTask task none, .panic)
    | _ => none
  | .check task =>
    match s.tasks task with
    | some (.keyed token entry) =>
      match checkToken C cfg s.recentChallenges entry token with
      | .ok nonce =>
        some (s.setTask task (some (.redeeming token (spendBody entry.epoch nonce))), .working)
      | .err text => some (s.setTask task none, .refused .forbidden text)
      | .panic => some (s.setTask task none, .panic)
    | _ => none
  | .redeemAnswer task answer =>
    match s.tasks task with
    | some (.redeeming token _) =>
      if answer = some .ok then some (s.setTask task none, .granted token)
      else some (s.setTask task none, .refused .conflict "token already spent (double-spend)\n")
    | _ => none

/-! ## What a step can do -/

variable {C cfg}

/-- Everything a step can do to the cached keys and the requests in flight. -/
inductive StepKind (C : Crypto) (cfg : OriginConfig) (s s' : OriginState) (e : OriginEvent)
    (r : OriginReply) : Prop
  /-- A request was answered at once, with a challenge or an error. -/
  | answered (task : Nat) (header : Option String) (ctx : Option (Bytes 32))
      (event : e = .request task header ctx) (keys : s'.keys = s.keys)
      (tasks : s'.tasks = s.tasks) (reply : ∀ token, r ≠ .granted token)
  /-- The key of a token was cached. -/
  | cached (task : Nat) (header : Option String) (ctx : Option (Bytes 32)) (token : SpendToken)
      (entry : KeyEntry) (event : e = .request task header ctx)
      (free : s.tasks task = none) (hit : s.keys token.tokenKeyId = some entry)
      (keys : s'.keys = s.keys)
      (tasks : s'.tasks = Function.update s.tasks task (some (.keyed token entry)))
      (reply : r = .working)
  /-- The key of a token was not cached. -/
  | missed (task : Nat) (header : Option String) (ctx : Option (Bytes 32)) (token : SpendToken)
      (event : e = .request task header ctx) (free : s.tasks task = none)
      (keys : s'.keys = s.keys)
      (tasks : s'.tasks = Function.update s.tasks task (some (.fetchingKt token)))
      (reply : r = .working)
  /-- The log verified, and has a record for the token's key. -/
  | logged (task : Nat) (token : SpendToken) (kt : KtResponse) (rec : KeyRecord)
      (event : e = .ktAnswer task (some kt)) (at_ : s.tasks task = some (.fetchingKt token))
      (lookup : lookupKt C cfg token.tokenKeyId kt = .ok (some rec)) (keys : s'.keys = s.keys)
      (tasks : s'.tasks = Function.update s.tasks task (some (.fetchingKey token rec.keyVersion)))
      (reply : r = .working)
  /-- The served key was accepted and cached. -/
  | resolved (task : Nat) (token : SpendToken) (version : UInt32) (pk : IssuerPublicKey)
      (entry : KeyEntry) (event : e = .keyAnswer task (some pk))
      (at_ : s.tasks task = some (.fetchingKey token version))
      (accept : acceptKey C token.tokenKeyId version pk = .ok entry)
      (keys : s'.keys = Function.update s.keys token.tokenKeyId (some entry))
      (tasks : s'.tasks = Function.update s.tasks task (some (.keyed token entry)))
      (reply : r = .working)
  /-- The token is valid and goes to the redeemer. -/
  | checked (task : Nat) (token : SpendToken) (entry : KeyEntry) (nonce : Bytes 32)
      (event : e = .check task) (at_ : s.tasks task = some (.keyed token entry))
      (check : checkToken C cfg s.recentChallenges entry token = .ok nonce)
      (keys : s'.keys = s.keys)
      (tasks : s'.tasks = Function.update s.tasks task
        (some (.redeeming token (spendBody entry.epoch nonce))))
      (reply : r = .working)
  /-- The redeemer has accepted the token. -/
  | granted (task : Nat) (token : SpendToken) (body : RedeemBody)
      (event : e = .redeemAnswer task (some .ok))
      (at_ : s.tasks task = some (.redeeming token body)) (keys : s'.keys = s.keys)
      (tasks : s'.tasks = Function.update s.tasks task none) (reply : r = .granted token)
  /-- The redeemer has not accepted the token, or its answer was lost. -/
  | refused (task : Nat) (answer : Option StatusCode) (event : e = .redeemAnswer task answer)
      (keys : s'.keys = s.keys) (tasks : s'.tasks = Function.update s.tasks task none)
      (reply : ∀ token, r ≠ .granted token)
  /-- A request was refused before it got to the redeemer. -/
  | dropped (task : Nat) (event : ∀ t answer, e ≠ .redeemAnswer t answer)
      (at_ : ∀ token body, s.tasks task ≠ some (.redeeming token body)) (keys : s'.keys = s.keys)
      (tasks : s'.tasks = Function.update s.tasks task none)
      (reply : ∀ token, r ≠ .granted token)

theorem challengeResponse_eq {s s' : OriginState} {ctx : Option (Bytes 32)} {r : OriginReply}
    (h : s.challengeResponse cfg ctx = (s', r)) :
    s'.keys = s.keys ∧ s'.tasks = s.tasks ∧ ∀ token, r ≠ .granted token := by
  unfold challengeResponse at h
  split at h <;> cases h <;> exact ⟨rfl, rfl, by simp⟩

theorem step_cases {s s' : OriginState} {e : OriginEvent} {r : OriginReply}
    (h : s.step C cfg e = some (s', r)) : StepKind C cfg s s' e r := by
  cases e with
  | request task header ctx =>
    simp only [step] at h
    split at h
    · next hfree =>
      split at h
      · obtain ⟨hkeys, htasks, hreply⟩ := challengeResponse_eq (Option.some.inj h)
        exact .answered task header ctx rfl hkeys htasks hreply
      · obtain ⟨hkeys, htasks, hreply⟩ := challengeResponse_eq (Option.some.inj h)
        exact .answered task header ctx rfl hkeys htasks hreply
      · cases h
        exact .answered task header ctx rfl rfl rfl (by simp)
      · next token _ =>
        split at h
        · next entry hhit =>
          cases h
          exact .cached task header ctx token entry rfl hfree hhit rfl rfl rfl
        · cases h
          exact .missed task header ctx token rfl hfree rfl rfl rfl
    · cases h
  | ktAnswer task answer =>
    simp only [step] at h
    split at h
    · next token hat =>
      split at h
      · next rec hlookup =>
        cases h
        obtain ⟨kt, hkt, hlookup⟩ := Outcome.bind_eq_ok.mp hlookup
        rw [Outcome.ofOption_eq_ok] at hkt
        subst hkt
        exact .logged task token kt rec rfl hat hlookup rfl rfl rfl
      · cases h
        exact .dropped task (by simp) (by simp [hat]) rfl rfl (by simp [unknownKey])
      · cases h
        exact .dropped task (by simp) (by simp [hat]) rfl rfl (by simp [unknownKey])
      · cases h
        exact .dropped task (by simp) (by simp [hat]) rfl rfl (by simp)
    · cases h
  | keyAnswer task answer =>
    simp only [step] at h
    split at h
    · next token version hat =>
      split at h
      · next entry haccept =>
        cases h
        obtain ⟨pk, hpk, haccept⟩ := Outcome.bind_eq_ok.mp haccept
        rw [Outcome.ofOption_eq_ok] at hpk
        subst hpk
        exact .resolved task token version pk entry rfl hat haccept rfl rfl rfl
      · cases h
        exact .dropped task (by simp) (by simp [hat]) rfl rfl (by simp [unknownKey])
      · cases h
        exact .dropped task (by simp) (by simp [hat]) rfl rfl (by simp)
    · cases h
  | check task =>
    simp only [step] at h
    split at h
    · next token entry hat =>
      split at h
      · next nonce hcheck =>
        cases h
        exact .checked task token entry nonce rfl hat hcheck rfl rfl rfl
      · cases h
        exact .dropped task (by simp) (by simp [hat]) rfl rfl (by simp)
      · cases h
        exact .dropped task (by simp) (by simp [hat]) rfl rfl (by simp)
    · cases h
  | redeemAnswer task answer =>
    simp only [step] at h
    split at h
    · next token body hat =>
      split at h
      · next hok =>
        cases h
        subst hok
        exact .granted task token body rfl hat rfl rfl rfl
      · cases h
        exact .refused task answer rfl rfl rfl (by simp)
    · cases h

/-- A step issues a challenge and remembers it, or leaves the challenges as they are. -/
theorem step_recent {s s' : OriginState} {e : OriginEvent} {r : OriginReply}
    (h : s.step C cfg e = some (s', r)) :
    (s'.recentChallenges = s.recentChallenges ∧ ∀ www, r ≠ .challenge www) ∨
    ∃ task header ctx ch, e = .request task header ctx ∧ freshChallenge cfg ctx = .ok ch ∧
      s'.recentChallenges = pushRecent s.recentChallenges ch ∧
      r = .challenge (wwwAuthenticate ch.toBytes s.advertisedPk) := by
  have hresponse : ∀ task header ctx, e = .request task header ctx →
      s.challengeResponse cfg ctx = (s', r) →
      (s'.recentChallenges = s.recentChallenges ∧ ∀ www, r ≠ .challenge www) ∨
      ∃ task header ctx ch, e = .request task header ctx ∧ freshChallenge cfg ctx = .ok ch ∧
        s'.recentChallenges = pushRecent s.recentChallenges ch ∧
        r = .challenge (wwwAuthenticate ch.toBytes s.advertisedPk) := by
    intro task header ctx he hr
    unfold challengeResponse at hr
    split at hr
    · next ch hch =>
      cases hr
      exact .inr ⟨task, header, ctx, ch, he, hch, rfl, rfl⟩
    · cases hr
      exact .inl ⟨rfl, by simp⟩
    · cases hr
      exact .inl ⟨rfl, by simp⟩
  cases e with
  | request task header ctx =>
    simp only [step] at h
    split at h
    · split at h
      · exact hresponse task header ctx rfl (Option.some.inj h)
      · exact hresponse task header ctx rfl (Option.some.inj h)
      · cases h
        exact .inl ⟨rfl, by simp⟩
      · split at h <;> cases h <;> exact .inl ⟨rfl, by simp⟩
    · cases h
  | ktAnswer task answer =>
    left
    simp only [step] at h
    split at h
    · split at h <;> cases h <;> exact ⟨rfl, by simp [unknownKey]⟩
    · cases h
  | keyAnswer task answer =>
    left
    simp only [step] at h
    split at h
    · split at h <;> cases h <;> exact ⟨rfl, by simp [unknownKey]⟩
    · cases h
  | check task =>
    left
    simp only [step] at h
    split at h
    · split at h <;> cases h <;> exact ⟨rfl, by simp⟩
    · cases h
  | redeemAnswer task answer =>
    left
    simp only [step] at h
    split at h
    · split at h <;> cases h <;> exact ⟨rfl, by simp⟩
    · cases h

/-- A request that goes on has a header with a token, and waits with it. -/
theorem step_request_working {s s' : OriginState} {task : Nat} {header : Option String}
    {ctx : Option (Bytes 32)} (h : s.step C cfg (.request task header ctx) = some (s', .working)) :
    ∃ text token, header = some text ∧ parseAuthorization text = .ok token ∧
      (s'.tasks task = some (.fetchingKt token) ∨
        ∃ entry, s'.tasks task = some (.keyed token entry)) := by
  have hresponse : s.challengeResponse cfg ctx ≠ (s', .working) := by
    unfold challengeResponse
    split <;> simp
  simp only [step] at h
  split at h
  · split at h
    · exact absurd (Option.some.inj h) hresponse
    · exact absurd (Option.some.inj h) hresponse
    · cases h
    · next token hmap =>
      obtain ⟨text, rfl, hparse⟩ := Option.map_eq_some_iff.mp hmap
      split at h
      · cases h
        exact ⟨text, token, rfl, hparse, .inr ⟨_, Function.update_self ..⟩⟩
      · cases h
        exact ⟨text, token, rfl, hparse, .inl (Function.update_self ..)⟩
  · cases h

/-! ## The steps of one request -/

section Steps

variable {s : OriginState} {task : Nat} {token : SpendToken} {header : String}

theorem setTask_tasks (s : OriginState) (task : Nat) (t : Option ResourceTask) :
    (s.setTask task t).tasks task = t := Function.update_self ..

theorem step_request_hit {entry : KeyEntry} (hfree : s.tasks task = none)
    (hparse : parseAuthorization header = .ok token)
    (hhit : s.keys token.tokenKeyId = some entry) (ctx : Option (Bytes 32)) :
    s.step C cfg (.request task (some header) ctx)
      = some (s.setTask task (some (.keyed token entry)), .working) := by
  simp only [step, hfree, if_true, Option.map_some, hparse, hhit]

theorem step_request_miss (hfree : s.tasks task = none)
    (hparse : parseAuthorization header = .ok token) (hmiss : s.keys token.tokenKeyId = none)
    (ctx : Option (Bytes 32)) :
    s.step C cfg (.request task (some header) ctx)
      = some (s.setTask task (some (.fetchingKt token)), .working) := by
  simp only [step, hfree, if_true, Option.map_some, hparse, hmiss]

theorem step_ktAnswer_absent {kt : KtResponse} (hat : s.tasks task = some (.fetchingKt token))
    (hlookup : lookupKt C cfg token.tokenKeyId kt = .ok none) :
    s.step C cfg (.ktAnswer task (some kt)) = some (s.setTask task none, unknownKey) := by
  simp only [step, hat, Outcome.ofOption_some, Outcome.ok_bind, hlookup]

theorem step_check_passed {entry : KeyEntry} {nonce : Bytes 32}
    (hat : s.tasks task = some (.keyed token entry))
    (hcheck : checkToken C cfg s.recentChallenges entry token = .ok nonce) :
    s.step C cfg (.check task)
      = some (s.setTask task (some (.redeeming token (spendBody entry.epoch nonce))),
          .working) := by
  simp only [step, hat, hcheck]

theorem step_redeemAnswer_ok {body : RedeemBody}
    (hat : s.tasks task = some (.redeeming token body)) :
    s.step C cfg (.redeemAnswer task (some .ok)) = some (s.setTask task none, .granted token) := by
  simp only [step, hat, if_true]

theorem step_request_challenge {ch : TokenChallenge} {ctx : Option (Bytes 32)}
    (hfree : s.tasks task = none) (hch : freshChallenge cfg ctx = .ok ch) :
    s.step C cfg (.request task none ctx)
      = some ({ s with recentChallenges := pushRecent s.recentChallenges ch },
          .challenge (wwwAuthenticate ch.toBytes s.advertisedPk)) := by
  simp only [step, hfree, if_true, Option.map_none, challengeResponse, hch]

end Steps

/-! ## When a request is granted -/

/-- What `key_for` returns. -/
theorem keyFor_snd (s : OriginState) (peers : Peers) (tkid : Bytes 32) :
    (s.keyFor C cfg peers tkid).2 = match s.keys tkid with
      | some entry => .ok (some entry)
      | none => resolveViaKt C cfg tkid peers.kt peers.keysVersion := by
  unfold keyFor
  cases s.keys tkid with
  | some entry => rfl
  | none =>
    cases resolveViaKt C cfg tkid peers.kt peers.keysVersion with
    | ok found => cases found <;> rfl
    | err e => rfl
    | panic => rfl

/-- **When access is granted**: the header has a token, its key is found, it passes the checks and
the redeemer accepts it. -/
theorem resource_eq_granted {s : OriginState} {peers : Peers} {header : String}
    {ctx : Option (Bytes 32)} {token : SpendToken} :
    (s.resource C cfg peers (some header) ctx).2 = .granted token ↔
      parseAuthorization header = .ok token ∧ ∃ entry nonce,
        (s.keyFor C cfg peers token.tokenKeyId).2 = .ok (some entry) ∧
        checkToken C cfg s.recentChallenges entry token = .ok nonce ∧
        peers.redeem (spendBody entry.epoch nonce) = some .ok := by
  have hrecent : ∀ tkid, (s.keyFor C cfg peers tkid).1.recentChallenges = s.recentChallenges := by
    intro tkid
    rw [keyFor]
    split
    · rfl
    · split <;> rfl
  have hchallenge : (s.challengeResponse cfg ctx).2 ≠ .granted token :=
    (challengeResponse_eq (Prod.mk.eta (p := s.challengeResponse cfg ctx)).symm).2.2 token
  simp only [resource, Option.map_some]
  cases hparse : parseAuthorization header with
  | err e => simpa using hchallenge
  | panic => simp
  | ok t =>
    simp only [Outcome.ok.injEq]
    have hkeep := hrecent t.tokenKeyId
    cases hkey : s.keyFor C cfg peers t.tokenKeyId with
    | mk s' found =>
      rw [hkey] at hkeep
      simp only at hkeep
      cases found with
      | panic => grind
      | err e => grind [unknownKey]
      | ok o =>
        cases o with
        | none => grind [unknownKey]
        | some entry =>
          simp only [hkeep]
          cases hcheck : checkToken C cfg s.recentChallenges entry t with
          | panic => grind
          | err e => grind
          | ok nonce => grind

/-- A token whose key is refused is answered with 403. -/
theorem resource_eq_unknownKey {s : OriginState} {peers : Peers} {header : String}
    {token : SpendToken} {e : String} (hparse : parseAuthorization header = .ok token)
    (hkey : (s.keyFor C cfg peers token.tokenKeyId).2 = .err e) (ctx : Option (Bytes 32)) :
    (s.resource C cfg peers (some header) ctx).2 = unknownKey := by
  simp only [resource, Option.map_some, hparse]
  cases hfound : s.keyFor C cfg peers token.tokenKeyId with
  | mk s' found =>
    rw [hfound] at hkey
    cases hkey
    rfl

/-! ## A request without interruption -/

/-- The answer an event brings is the one the peers give to what the request has asked. -/
def Peers.answers (peers : Peers) (s : OriginState) : OriginEvent → Bool
  | .ktAnswer _ answer => answer = peers.kt
  | .keyAnswer task answer =>
    match s.tasks task with
    | some (.fetchingKey _ version) => answer = peers.keysVersion version
    | _ => false
  | .redeemAnswer task answer =>
    match s.tasks task with
    | some (.redeeming _ body) => answer = peers.redeem body
    | _ => false
  | _ => true

/-- The steps of an origin whose peers give these answers. -/
def stepWith (C : Crypto) (cfg : OriginConfig) (peers : Peers) (s : OriginState)
    (e : OriginEvent) : Option (OriginState × OriginReply) :=
  if peers.answers s e then s.step C cfg e else none

theorem setTask_none {s : OriginState} {task : Nat} (hfree : s.tasks task = none) :
    s.setTask task none = s := by
  cases s
  simp only [setTask]
  rw [← hfree, Function.update_eq_self]

theorem setTask_setTask (s : OriginState) (task : Nat) (t t' : Option ResourceTask) :
    (s.setTask task t).setTask task t' = s.setTask task t' := by
  simp only [setTask, Function.update_idem]

/-- The answer to a request whose key is known. -/
def answerKeyed (C : Crypto) (cfg : OriginConfig) (s : OriginState) (peers : Peers)
    (token : SpendToken) (entry : KeyEntry) : OriginReply :=
  match checkToken C cfg s.recentChallenges entry token with
  | .panic => .panic
  | .err text => .refused .forbidden text
  | .ok nonce =>
    if peers.redeem (spendBody entry.epoch nonce) = some .ok then .granted token
    else .refused .conflict "token already spent (double-spend)\n"

/-- The state when `key_for` has resolved a key. -/
def withKey (s : OriginState) (tkid : Bytes 32) : Outcome String (Option KeyEntry) → OriginState
  | .ok (some entry) => { s with keys := Function.update s.keys tkid (some entry) }
  | _ => s

/-- The answer to a request for whose key the log was asked. -/
def answerFor (C : Crypto) (cfg : OriginConfig) (s : OriginState) (peers : Peers)
    (token : SpendToken) : Outcome String (Option KeyEntry) → OriginReply
  | .ok (some entry) => s.answerKeyed C cfg peers token entry
  | .panic => .panic
  | _ => unknownKey

/-- The part of `resolve_via_kt` that fetches the key of a version. -/
def fetchKey (C : Crypto) (tkid : Bytes 32) (peers : Peers) (version : UInt32) :
    Outcome String (Option KeyEntry) :=
  (Outcome.ofOption "/keys" (peers.keysVersion version) >>= acceptKey C tkid version)
    >>= fun entry => .ok (some entry)

/-- `resolve_via_kt` asks for the log first, then for the key. -/
theorem resolveViaKt_eq (tkid : Bytes 32) (peers : Peers) :
    resolveViaKt C cfg tkid peers.kt peers.keysVersion
      = (Outcome.ofOption "/kt" peers.kt >>= lookupKt C cfg tkid) >>= fun found =>
        match found with
        | none => .ok none
        | some rec => fetchKey C tkid peers rec.keyVersion := by
  unfold resolveViaKt
  cases peers.kt with
  | none => rfl
  | some kt =>
    simp only [Outcome.ofOption_some, Outcome.ok_bind]
    cases lookupKt C cfg tkid kt with
    | err e => rfl
    | panic => rfl
    | ok found =>
      cases found with
      | none => rfl
      | some rec =>
        simp only [Outcome.ok_bind, fetchKey]
        cases peers.keysVersion rec.keyVersion <;> rfl

section Uninterrupted

variable {s : OriginState} {task : Nat} {token : SpendToken} {peers : Peers}

/-- A run of one request: it goes on until its last step answers. -/
def Answers (C : Crypto) (cfg : OriginConfig) (peers : Peers) (s s' : OriginState)
    (r : OriginReply) : Prop :=
  ∃ before e, (∀ x ∈ before, x.2 = .working) ∧
    Trace (stepWith C cfg peers) s (before ++ [(e, r)]) s'

theorem Answers.one {s' : OriginState} {e : OriginEvent} {r : OriginReply}
    (h : s.stepWith C cfg peers e = some (s', r)) : Answers C cfg peers s s' r :=
  ⟨[], e, by simp, .snoc .init h⟩

theorem Answers.cons {s₁ s' : OriginState} {e : OriginEvent} {r : OriginReply}
    (h : s.stepWith C cfg peers e = some (s₁, .working)) (hrest : Answers C cfg peers s₁ s' r) :
    Answers C cfg peers s s' r := by
  obtain ⟨before, last, hworking, ht⟩ := hrest
  refine ⟨(e, .working) :: before, last, ?_, ?_⟩
  · intro x hx
    rcases List.mem_cons.mp hx with rfl | hx
    · rfl
    · exact hworking x hx
  · rw [List.cons_append, ← List.singleton_append]
    exact Trace.append_iff.mpr ⟨s₁, .snoc .init h, ht⟩

/-- From `check` on. -/
theorem answers_keyed (hfree : s.tasks task = none) (entry : KeyEntry) :
    Answers C cfg peers (s.setTask task (some (.keyed token entry))) s
      (s.answerKeyed C cfg peers token entry) := by
  have hat : (s.setTask task (some (.keyed token entry))).tasks task = some (.keyed token entry) :=
    setTask_tasks s task _
  have hrecent : (s.setTask task (some (.keyed token entry))).recentChallenges
      = s.recentChallenges := rfl
  unfold answerKeyed
  cases hcheck : checkToken C cfg s.recentChallenges entry token with
  | panic =>
    refine .one (e := .check task) ?_
    simp only [stepWith, Peers.answers, if_true, step, hat, hrecent, hcheck, setTask_setTask,
      setTask_none hfree]
  | err text =>
    refine .one (e := .check task) ?_
    simp only [stepWith, Peers.answers, if_true, step, hat, hrecent, hcheck, setTask_setTask,
      setTask_none hfree]
  | ok nonce =>
    refine .cons (e := .check task) (step_check_passed hat hcheck) ?_
    refine .one (e := .redeemAnswer task (peers.redeem (spendBody entry.epoch nonce))) ?_
    simp only [stepWith, Peers.answers, setTask_tasks, decide_true, if_true, step, setTask_setTask,
      setTask_none hfree]
    split <;> rfl

/-- From the answer of `/keys/{version}` on. -/
theorem answers_fetchingKey (hfree : s.tasks task = none) (version : UInt32) :
    Answers C cfg peers (s.setTask task (some (.fetchingKey token version)))
      (s.withKey token.tokenKeyId (fetchKey C token.tokenKeyId peers version))
      (s.answerFor C cfg peers token (fetchKey C token.tokenKeyId peers version)) := by
  have hat : (s.setTask task (some (.fetchingKey token version))).tasks task
      = some (.fetchingKey token version) := setTask_tasks s task _
  unfold fetchKey
  cases haccept : Outcome.ofOption "/keys" (peers.keysVersion version)
      >>= acceptKey C token.tokenKeyId version with
  | panic =>
    refine .one (e := .keyAnswer task (peers.keysVersion version)) ?_
    simp only [stepWith, Peers.answers, hat, decide_true, if_true, step, haccept,
      setTask_setTask, setTask_none hfree]
    rfl
  | err e =>
    refine .one (e := .keyAnswer task (peers.keysVersion version)) ?_
    simp only [stepWith, Peers.answers, hat, decide_true, if_true, step, haccept,
      setTask_setTask, setTask_none hfree]
    rfl
  | ok entry =>
    have hstep : (s.setTask task (some (.fetchingKey token version))).stepWith C cfg peers
        (.keyAnswer task (peers.keysVersion version))
        = some ((s.withKey token.tokenKeyId (.ok (some entry))).setTask task
            (some (.keyed token entry)), .working) := by
      simp only [stepWith, Peers.answers, hat, decide_true, if_true, step, haccept, withKey]
      simp only [setTask, Function.update_idem]
    exact .cons hstep (answers_keyed (s := s.withKey token.tokenKeyId (.ok (some entry))) hfree
      entry)

/-- From the answer of `/kt` on. -/
theorem answers_fetchingKt (hfree : s.tasks task = none) :
    Answers C cfg peers (s.setTask task (some (.fetchingKt token)))
      (s.withKey token.tokenKeyId
        (resolveViaKt C cfg token.tokenKeyId peers.kt peers.keysVersion))
      (s.answerFor C cfg peers token
        (resolveViaKt C cfg token.tokenKeyId peers.kt peers.keysVersion)) := by
  have hat : (s.setTask task (some (.fetchingKt token))).tasks task = some (.fetchingKt token) :=
    setTask_tasks s task _
  rw [resolveViaKt_eq]
  cases hlookup : Outcome.ofOption "/kt" peers.kt >>= lookupKt C cfg token.tokenKeyId with
  | panic =>
    refine .one (e := .ktAnswer task peers.kt) ?_
    simp only [stepWith, Peers.answers, decide_true, if_true, step, hat, hlookup, setTask_setTask,
      setTask_none hfree]
    rfl
  | err e =>
    refine .one (e := .ktAnswer task peers.kt) ?_
    simp only [stepWith, Peers.answers, decide_true, if_true, step, hat, hlookup, setTask_setTask,
      setTask_none hfree]
    rfl
  | ok found =>
    rw [Outcome.ok_bind]
    cases found with
    | none =>
      refine .one (e := .ktAnswer task peers.kt) ?_
      simp only [stepWith, Peers.answers, decide_true, if_true, step, hat, hlookup,
        setTask_setTask, setTask_none hfree]
      rfl
    | some rec =>
      have hstep : (s.setTask task (some (.fetchingKt token))).stepWith C cfg peers
          (.ktAnswer task peers.kt)
          = some (s.setTask task (some (.fetchingKey token rec.keyVersion)), .working) := by
        simp only [stepWith, Peers.answers, decide_true, if_true, step, hat, hlookup,
          setTask_setTask]
      exact .cons hstep (answers_fetchingKey hfree rec.keyVersion)

/-- **A request that nothing else comes between is one of the runs of the origin**: its steps lead
to the state and the answer of `resource`. -/
theorem answers_resource (hfree : s.tasks task = none) (peers : Peers) (header : Option String)
    (ctx : Option (Bytes 32)) :
    Answers C cfg peers s (s.resource C cfg peers header ctx).1
      (s.resource C cfg peers header ctx).2 := by
  unfold resource
  cases hparse : header.map parseAuthorization with
  | none =>
    refine .one (e := .request task header ctx) ?_
    simp only [stepWith, Peers.answers, if_true, step, hfree, hparse]
  | some parsed =>
    cases parsed with
    | err e =>
      refine .one (e := .request task header ctx) ?_
      simp only [stepWith, Peers.answers, if_true, step, hfree, hparse]
    | panic =>
      refine .one (e := .request task header ctx) ?_
      simp only [stepWith, Peers.answers, if_true, step, hfree, hparse]
    | ok token =>
      cases hkey : s.keys token.tokenKeyId with
      | some entry =>
        have hstep : s.stepWith C cfg peers (.request task header ctx)
            = some (s.setTask task (some (.keyed token entry)), .working) := by
          simp only [stepWith, Peers.answers, if_true, step, hfree, hparse, hkey]
        have hanswer := Answers.cons hstep (answers_keyed hfree entry)
        simp only [keyFor, hkey]
        unfold answerKeyed at hanswer
        grind
      | none =>
        have hstep : s.stepWith C cfg peers (.request task header ctx)
            = some (s.setTask task (some (.fetchingKt token)), .working) := by
          simp only [stepWith, Peers.answers, if_true, step, hfree, hparse, hkey]
        have hanswer := Answers.cons hstep (answers_fetchingKt hfree)
        simp only [keyFor, hkey]
        cases hresolve : resolveViaKt C cfg token.tokenKeyId peers.kt peers.keysVersion with
        | panic => simpa [hresolve, withKey, answerFor] using hanswer
        | err e => simpa [hresolve, withKey, answerFor] using hanswer
        | ok found =>
          cases found with
          | none => simpa [hresolve, withKey, answerFor] using hanswer
          | some entry =>
            simp only [hresolve, withKey, answerFor, answerKeyed] at hanswer ⊢
            grind

end Uninterrupted

end OriginState

/-! ## What the checks establish -/

variable {C cfg}

/-- What the origin has checked when it asks for the key of a version. -/
theorem lookupKt_ok {tkid : Bytes 32} {kt : KtResponse} {rec : KeyRecord}
    (h : lookupKt C cfg tkid kt = .ok (some rec)) :
    kt.servedPub = cfg.ktLogPub.val ∧
      verifyLog C cfg.profile cfg.ktLogPub kt.records kt.signedHead = .ok () ∧
      findRecord kt.records tkid = some rec := by
  simp only [lookupKt, Outcome.bind_eq_ok, Outcome.require_eq_ok, Outcome.mapErr_eq_ok,
    Outcome.pure_eq_ok, Outcome.ok.injEq] at h
  obtain ⟨_, hpub, _, hlog, hfind⟩ := h
  exact ⟨hpub, hlog, hfind⟩

theorem acceptKey_ok {tkid : Bytes 32} {version : UInt32} {pk : IssuerPublicKey}
    {entry : KeyEntry} (h : acceptKey C tkid version pk = .ok entry) :
    pk.tokenKeyId C = tkid ∧ entry = ⟨⟨pk⟩, pk.keyVersion⟩ := by
  simp only [acceptKey, Outcome.bind_eq_ok, Outcome.require_eq_ok, Outcome.pure_eq_ok,
    Outcome.ok.injEq] at h
  obtain ⟨_, htkid, hentry⟩ := h
  exact ⟨htkid, hentry.symm⟩

/-- A log that verifies is looked up. -/
theorem lookupKt_eq_ok {kt : KtResponse} (hpub : kt.servedPub = cfg.ktLogPub.val)
    (hlog : verifyLog C cfg.profile cfg.ktLogPub kt.records kt.signedHead = .ok ())
    (tkid : Bytes 32) : lookupKt C cfg tkid kt = .ok (findRecord kt.records tkid) := by
  simp only [lookupKt, Outcome.require_pos hpub, hlog, Outcome.ok_bind, Outcome.mapErr_ok,
    Outcome.pure_eq_ok]

theorem acceptKey_eq_ok {tkid : Bytes 32} {pk : IssuerPublicKey} (h : pk.tokenKeyId C = tkid)
    (version : UInt32) : acceptKey C tkid version pk = .ok ⟨⟨pk⟩, pk.keyVersion⟩ := by
  simp only [acceptKey, Outcome.require_pos h, Outcome.ok_bind, Outcome.pure_eq_ok]

theorem acceptKey_eq_err {tkid : Bytes 32} {pk : IssuerPublicKey} (h : pk.tokenKeyId C ≠ tkid)
    (version : UInt32) :
    acceptKey C tkid version pk = .err
      ("/keys/" ++ toString version ++ " token_key_id disagrees with the transparency log") := by
  simp only [acceptKey, Outcome.require, if_neg h]
  rfl

/-- A token that goes to the redeemer was signed under the key of its entry. -/
theorem checkToken_ok {recent : List TokenChallenge} {entry : KeyEntry} {token : SpendToken}
    {nonce : Bytes 32} (h : checkToken C cfg recent entry token = .ok nonce) :
    token.tokenKeyId = entry.verifier.pk.tokenKeyId C ∧ token.nonce = nonce := by
  simp only [checkToken, Outcome.bind_eq_ok, Outcome.mapErr_eq_ok] at h
  obtain ⟨_, _, _, _, hverify⟩ := h
  exact Verifier.verify_ok hverify

/-- A token passes the checks if it verifies under a remembered challenge. The lookup may find
another challenge, but one with the same digest. -/
theorem checkToken_eq_ok {recent : List TokenChallenge} {entry : KeyEntry} {token : SpendToken}
    {ch : TokenChallenge} {nonce : Bytes 32} (hmem : ch ∈ recent)
    (hdigest : ch.digest C = token.challengeDigest)
    (hctx : cfg.requireRedemptionContext = true → ∀ c ∈ recent, c.hasRedemptionContext = true)
    (hverify : entry.verifier.verify C token ch = .ok nonce) :
    checkToken C cfg recent entry token = .ok nonce := by
  have hfound : ∃ c, challengeForDigest C recent token.challengeDigest = some c := by
    refine Option.isSome_iff_exists.mp (List.find?_isSome.mpr ⟨ch, hmem, ?_⟩)
    simpa using hdigest
  obtain ⟨c, hc⟩ := hfound
  have hsame : c.digest C = ch.digest C := by
    have := List.find?_some hc
    rw [hdigest]
    simpa using this
  have hcontext : cfg.requireRedemptionContext = true → c.hasRedemptionContext = true :=
    fun hreq => hctx hreq c (List.mem_of_find?_eq_some hc)
  simp only [checkToken, hc, Outcome.ofOption_some, Outcome.ok_bind,
    Outcome.require_pos hcontext, Verifier.verify_congr hsame, hverify, Outcome.mapErr_ok]

end EatPass
