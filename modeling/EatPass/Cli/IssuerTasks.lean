import Mathlib.Data.Finset.Erase
import Mathlib.Data.Finset.Insert
import EatPass.Cli.Issuer
import EatPass.Infra.Linearize

/-!
# Requests of the issuer in progress

`sign` of `cli/src/issuer.rs` is not one step. It decodes the authorization without any lock, takes
the read lock on `rot` and holds it to the end, and asks the limiter in between, whose state has a
lock of its own. Any number of `sign` handlers hold the read lock at once, so their steps are
interleaved; the write section of a `rotate` waits until no handler holds it.

* `IssuerTasks.implements` — the requests implement the issuer whose `sign` is one step
-/

namespace EatPass

open Infra

variable {C : Crypto}

/-- How far a `sign` handler is. -/
inductive SignTask where
  /-- It has decoded the authorization, or knows that it cannot be decoded. -/
  | decoded (body : SignBody) (auth : Reply IssuanceAuthorization)
  /-- It holds the read lock, under which it has read the key, and has read the clock. -/
  | locked (body : SignBody) (auth : IssuanceAuthorization) (issuer : Issuer) (now : UInt64)
  /-- The checks that need no limiter are passed. -/
  | checked (body : SignBody) (auth : IssuanceAuthorization) (issuer : Issuer) (now : UInt64)
      (batch : UInt32)
  /-- The limiter has answered. The batch is signed with the lock still held. -/
  | consumed (body : SignBody) (issuer : Issuer) (result : Outcome RateLimitError Unit)
  /-- The handler fails, with the lock released or never taken. -/
  | refused (body : SignBody) (reply : Reply SignResponse)

/-- The process, the handlers that hold the read lock, and the `sign` handlers in progress. -/
structure IssuerTasks (cfg : IssuerConfig C) where
  proc : IssuerProc cfg
  readers : Finset Nat
  signs : Nat → Option SignTask

inductive IssuerTaskEvent where
  /-- A request for `sign` arrives. -/
  | sign (t : Nat) (body : SignBody)
  /-- A handler that could not decode the authorization refuses. -/
  | refuse (t : Nat)
  | lock (t : Nat) (now : UInt64)
  | check (t : Nat)
  | consume (t : Nat) (limiterNow : UInt64)
  | finish (t : Nat)
  /-- A step of another handler; a whole `sign` is not one. -/
  | other (e : IssuerEvent)

/-- What a caller asks the issuer for: it does not know the times the handler will read. -/
inductive IssuerCall where
  | sign (body : SignBody)
  | other (e : IssuerEvent)
deriving DecidableEq

def IssuerEvent.call : IssuerEvent → IssuerCall
  | .sign body _ _ => .sign body
  | e => .other e

/-- The answer once the limiter has answered. -/
def signReply (C : Crypto) (issuer : Issuer) (req : SignRequest)
    (consumed : Outcome RateLimitError Unit) : Reply SignResponse :=
  Outcome.mapErr GateError.reply do
    consumed.mapErr RateLimitError.toGateError
    (issuer.blindSign C req).mapErr fun e => .unknown e.message

/-- The write section of `rotate` needs the lock for itself. -/
def IssuerEvent.exclusive : IssuerEvent → Bool
  | .write _ => true
  | _ => false

/-! ## The parts of `sign` -/

section Parts

variable {cfg : IssuerConfig C} {body : SignBody} {auth : IssuanceAuthorization}

theorem IssuerConfig.sign_undecoded {e : StatusCode × String}
    (hdec : decodeAuthorization cfg.json body.authorizationB64 = .err e) (rot : Rotating)
    (limiter : cfg.limiter.State) (now limiterNow : UInt64) :
    cfg.sign rot limiter body now limiterNow = (limiter, .err e) := by
  simp only [IssuerConfig.sign, hdec]

/-- A handler whose checks fail does not ask the limiter. -/
theorem IssuerConfig.sign_unchecked {now : UInt64} {r : Outcome GateError SignResponse}
    (hdec : decodeAuthorization cfg.json body.authorizationB64 = .ok auth) {rot : Rotating}
    (hissue : ∀ limiter limiterNow, issueAuthorizedWithLimit C cfg.limiter rot.current
      cfg.attesterPub body.req auth limiter now limiterNow = (limiter, r))
    (limiter : cfg.limiter.State) (limiterNow : UInt64) :
    cfg.sign rot limiter body now limiterNow = (limiter, r.mapErr GateError.reply) := by
  simp only [IssuerConfig.sign, hdec, hissue]

/-- **A handler whose checks pass answers with what the limiter says and the key it has read.** -/
theorem IssuerConfig.sign_checked {now : UInt64} {batch : UInt32} {rot : Rotating}
    (hdec : decodeAuthorization cfg.json body.authorizationB64 = .ok auth)
    (hpassed : authorizedBatch C cfg.attesterPub body.req auth now = .ok batch)
    (limiter : cfg.limiter.State) (limiterNow : UInt64) :
    cfg.sign rot limiter body now limiterNow =
      ((cfg.limiter.tryConsume limiter limiterNow auth.rateLimitId batch).1,
        signReply C rot.current body.req
          (cfg.limiter.tryConsume limiter limiterNow auth.rateLimitId batch).2) := by
  simp only [IssuerConfig.sign, hdec, issueAuthorizedWithLimit, hpassed, signReply]

end Parts

/-- Only a write section changes what the lock guards. -/
theorem IssuerProc.step_rot {cfg : IssuerConfig C} {p p' : IssuerProc cfg} {e : IssuerEvent}
    {r : IssuerReply} (h : p.step e = some (p', r)) (he : e.exclusive = false) :
    p'.rot = p.rot := by
  cases IssuerProc.step_cases h with
  | quiet rot => exact rot
  | read _ _ _ _ _ _ _ rot => exact rot
  | generate _ _ _ _ _ _ _ rot => exact rot
  | write _ _ _ _ event =>
    rw [event] at he
    cases he

namespace IssuerTasks

variable {cfg : IssuerConfig C}

/-- No request has arrived. -/
def start (proc : IssuerProc cfg) : IssuerTasks cfg := ⟨proc, ∅, fun _ => none⟩

def setSign (s : IssuerTasks cfg) (t : Nat) (task : Option SignTask) : IssuerTasks cfg :=
  { s with signs := Function.update s.signs t task }

/-- A handler drops its guard. -/
def unlock (s : IssuerTasks cfg) (t : Nat) : IssuerTasks cfg :=
  { s with readers := s.readers.erase t }

/-- One step of the requests in progress. -/
def step (s : IssuerTasks cfg) :
    IssuerTaskEvent → Option (IssuerTasks cfg × Mark IssuerCall IssuerEvent IssuerReply)
  | .sign t body =>
    match s.signs t with
    | some _ => none
    | none =>
      some (s.setSign t (some (.decoded body (decodeAuthorization cfg.json body.authorizationB64))),
        .called t (.sign body))
  | .refuse t =>
    match s.signs t with
    | some (.decoded body (.err e)) =>
      some (s.setSign t (some (.refused body (.err e))),
        .effect t (.sign body 0 0) (.sign (.err e)))
    | _ => none
  | .lock t now =>
    match s.signs t with
    | some (.decoded body (.ok auth)) =>
      some ({ s with readers := insert t s.readers }.setSign t
        (some (.locked body auth s.proc.rot.current now)), .silent)
    | _ => none
  | .check t =>
    match s.signs t with
    | some (.locked body auth issuer now) =>
      match authorizedBatch C cfg.attesterPub body.req auth now with
      | .ok batch => some (s.setSign t (some (.checked body auth issuer now batch)), .silent)
      | .err e =>
        some ((s.unlock t).setSign t (some (.refused body (.err e.reply))),
          .effect t (.sign body now 0) (.sign (.err e.reply)))
      | .panic =>
        some ((s.unlock t).setSign t (some (.refused body .panic)),
          .effect t (.sign body now 0) (.sign .panic))
    | _ => none
  | .consume t limiterNow =>
    match s.signs t with
    | some (.checked body auth issuer now batch) =>
      let (limiter, result) :=
        cfg.limiter.tryConsume s.proc.limiter limiterNow auth.rateLimitId batch
      some ({ s with proc := { s.proc with limiter } }.setSign t
          (some (.consumed body issuer result)),
        .effect t (.sign body now limiterNow) (.sign (signReply C issuer body.req result)))
    | _ => none
  | .finish t =>
    match s.signs t with
    | some (.consumed body issuer result) =>
      some ((s.unlock t).setSign t none,
        .returned t (.sign body) (.sign (signReply C issuer body.req result)))
    | some (.refused body reply) =>
      some (s.setSign t none, .returned t (.sign body) (.sign reply))
    | _ => none
  | .other e =>
    match e with
    | .sign .. => none
    | e =>
      if e.exclusive ∧ s.readers ≠ ∅ then none
      else (s.proc.step e).map fun (proc, r) => ({ s with proc }, .instant e r)

/-! ## What a handler knows -/

/-- What a handler has found out is still so while it holds the lock. -/
inductive Sound (s : IssuerTasks cfg) (t : Nat) : SignTask → Prop
  | decoded {body : SignBody} {auth : Reply IssuanceAuthorization}
      (decode : decodeAuthorization cfg.json body.authorizationB64 = auth) :
      Sound s t (.decoded body auth)
  | locked {body : SignBody} {auth : IssuanceAuthorization} {issuer : Issuer} {now : UInt64}
      (reads : t ∈ s.readers) (current : issuer = s.proc.rot.current)
      (decode : decodeAuthorization cfg.json body.authorizationB64 = .ok auth) :
      Sound s t (.locked body auth issuer now)
  | checked {body : SignBody} {auth : IssuanceAuthorization} {issuer : Issuer} {now : UInt64}
      {batch : UInt32} (reads : t ∈ s.readers) (current : issuer = s.proc.rot.current)
      (decode : decodeAuthorization cfg.json body.authorizationB64 = .ok auth)
      (passed : authorizedBatch C cfg.attesterPub body.req auth now = .ok batch) :
      Sound s t (.checked body auth issuer now batch)
  | consumed (body : SignBody) (issuer : Issuer) (result : Outcome RateLimitError Unit) :
      Sound s t (.consumed body issuer result)
  | refused (body : SignBody) (reply : Reply SignResponse) : Sound s t (.refused body reply)

/-- What a handler knows stays true while it keeps the lock and nobody writes. -/
theorem Sound.of_same {s s' : IssuerTasks cfg} {t : Nat} {task : SignTask} (h : s.Sound t task)
    (hrot : t ∈ s.readers → t ∈ s'.readers ∧ s'.proc.rot = s.proc.rot) : s'.Sound t task := by
  cases h with
  | decoded decode => exact .decoded decode
  | locked reads current decode =>
    obtain ⟨hreads, hrot⟩ := hrot reads
    exact .locked hreads (by rw [current, hrot]) decode
  | checked reads current decode passed =>
    obtain ⟨hreads, hrot⟩ := hrot reads
    exact .checked hreads (by rw [current, hrot]) decode passed
  | consumed body issuer result => exact .consumed body issuer result
  | refused body reply => exact .refused body reply

/-- Every handler knows what it says. -/
def Inv (s : IssuerTasks cfg) : Prop := ∀ t task, s.signs t = some task → s.Sound t task

/-- A step of one handler: the others know what they knew. -/
theorem Inv.set {s s' : IssuerTasks cfg} {t : Nat} {task : Option SignTask} (hinv : s.Inv)
    (hrot : s'.proc.rot = s.proc.rot) (hreads : ∀ u, u ≠ t → u ∈ s.readers → u ∈ s'.readers)
    (hsigns : s'.signs = Function.update s.signs t task)
    (htask : ∀ x, task = some x → s'.Sound t x) : s'.Inv := by
  intro u x hx
  rw [hsigns] at hx
  by_cases hu : u = t
  · subst hu
    rw [Function.update_self] at hx
    exact htask x hx
  · rw [Function.update_of_ne hu] at hx
    exact (hinv u x hx).of_same fun h => ⟨hreads u hu h, hrot⟩

/-! ## The object -/

/-- The request of a handler, with its answer once it is decided. -/
def flight : SignTask → IssuerCall × Option IssuerReply
  | .decoded body _ => (.sign body, none)
  | .locked body _ _ _ => (.sign body, none)
  | .checked body _ _ _ _ => (.sign body, none)
  | .consumed body issuer result => (.sign body, some (.sign (signReply C issuer body.req result)))
  | .refused body reply => (.sign body, some (.sign reply))

def inFlight (s : IssuerTasks cfg) : InFlight IssuerCall IssuerReply :=
  fun t => (s.signs t).map (flight (C := C))

theorem inFlight_setSign (s : IssuerTasks cfg) (t : Nat) (task : Option SignTask) :
    (s.setSign t task).inFlight = Function.update s.inFlight t (task.map (flight (C := C))) := by
  funext u
  unfold inFlight setSign
  by_cases hu : u = t
  · subst hu
    simp
  · simp [hu]

theorem inFlight_eq {s : IssuerTasks cfg} {t : Nat} {task : SignTask} (h : s.signs t = some task) :
    s.inFlight t = some (flight (C := C) task) := by
  rw [inFlight, h]
  rfl

/-! ## Steps -/

/-- Handlers know what they know, and the step follows the process whose `sign` is one step. -/
def Good (s s' : IssuerTasks cfg) (m : Mark IssuerCall IssuerEvent IssuerReply) : Prop :=
  s'.Inv ∧ Follows IssuerProc.step IssuerEvent.call (s.proc, s.inFlight) m (s'.proc, s'.inFlight)

section Steps

variable {s : IssuerTasks cfg} (s₁ : IssuerTasks cfg) {t : Nat} {task : SignTask}

/-- A handler goes on, and nobody sees it. -/
theorem good_silent (hinv : s.Inv) (hat : s.signs t = some task) (hproc : s₁.proc = s.proc)
    (hsigns : s₁.signs = s.signs) (hreads : s.readers ⊆ s₁.readers) {task' : SignTask}
    (hsame : flight (C := C) task' = flight (C := C) task)
    (hsound : (s₁.setSign t (some task')).Sound t task') :
    Good s (s₁.setSign t (some task')) .silent := by
  refine ⟨hinv.set (congrArg _ hproc) (fun u _ h => hreads h) (by rw [← hsigns]; rfl) ?_, ?_⟩
  · rintro x ⟨⟩
    exact hsound
  · have hflight : s₁.inFlight = s.inFlight := by unfold inFlight; rw [hsigns]
    rw [inFlight_setSign, hflight, Option.map_some, hsame, ← inFlight_eq hat,
      Function.update_eq_self]
    show Follows _ _ _ _ (s₁.proc, s.inFlight)
    rw [hproc]
    exact .silent _ _

/-- The answer of a handler is decided: the `sign` in one piece is a step of the process. -/
theorem good_effect (hinv : s.Inv) (hat : s.signs t = some task) (hsigns : s₁.signs = s.signs)
    (hreads : ∀ u, u ≠ t → u ∈ s.readers → u ∈ s₁.readers) {body : SignBody}
    (htask : flight (C := C) task = (.sign body, none)) {now limiterNow : UInt64}
    {limiter : cfg.limiter.State} {reply : Reply SignResponse}
    (hsign : cfg.sign s.proc.rot s.proc.limiter body now limiterNow = (limiter, reply))
    (hproc : s₁.proc = { s.proc with limiter }) {task' : SignTask}
    (htask' : flight (C := C) task' = (.sign body, some (.sign reply)))
    (hsound : (s₁.setSign t (some task')).Sound t task') :
    Good s (s₁.setSign t (some task')) (.effect t (.sign body now limiterNow) (.sign reply)) := by
  have hrot : s₁.proc.rot = s.proc.rot := by rw [hproc]
  refine ⟨hinv.set hrot hreads (by rw [← hsigns]; rfl) ?_, ?_⟩
  · rintro x ⟨⟩
    exact hsound
  · have hflight : s₁.inFlight = s.inFlight := by unfold inFlight; rw [hsigns]
    rw [inFlight_setSign, hflight, Option.map_some, htask']
    show Follows _ _ _ _ (s₁.proc, _)
    rw [hproc]
    exact .effect (e := IssuerEvent.sign body now limiterNow)
      (by rw [inFlight_eq hat, htask]; rfl) (IssuerProc.step_sign_eq hsign)

/-- A handler returns. -/
theorem good_returned (hinv : s.Inv) (hat : s.signs t = some task) (hproc : s₁.proc = s.proc)
    (hsigns : s₁.signs = s.signs) (hreads : ∀ u, u ≠ t → u ∈ s.readers → u ∈ s₁.readers)
    {call : IssuerCall} {reply : IssuerReply}
    (htask : flight (C := C) task = (call, some reply)) :
    Good s (s₁.setSign t none) (.returned t call reply) := by
  refine ⟨hinv.set (congrArg _ hproc) hreads (by rw [← hsigns]; rfl) ?_, ?_⟩
  · intro x hx
    cases hx
  · have hflight : s₁.inFlight = s.inFlight := by unfold inFlight; rw [hsigns]
    rw [inFlight_setSign, hflight]
    show Follows _ _ _ _ (s₁.proc, _)
    rw [hproc]
    exact .returned (by rw [inFlight_eq hat, htask])

/-- A step of another handler. -/
theorem good_other (hinv : s.Inv) {e : IssuerEvent} {p : IssuerProc cfg} {r : IssuerReply}
    (hfree : e.exclusive = true → s.readers = ∅) (hstep : s.proc.step e = some (p, r)) :
    Good s { s with proc := p } (.instant e r) := by
  refine ⟨fun t task hat => (hinv t task hat).of_same fun hreads => ⟨hreads, ?_⟩, .instant hstep⟩
  refine IssuerProc.step_rot hstep ?_
  by_contra hexclusive
  rw [hfree (Bool.not_eq_false _ ▸ hexclusive)] at hreads
  exact absurd hreads (Finset.notMem_empty t)

/-- **What a step does**: it keeps what the handlers know, and follows the process whose `sign` is
one step. -/
theorem step_good {s' : IssuerTasks cfg} {e : IssuerTaskEvent}
    {m : Mark IssuerCall IssuerEvent IssuerReply} (hinv : s.Inv) (h : s.step e = some (s', m)) :
    Good s s' m := by
  have hothers : ∀ t u, u ≠ t → u ∈ s.readers → u ∈ (s.unlock t).readers :=
    fun t u hu hreads => Finset.mem_erase.mpr ⟨hu, hreads⟩
  cases e with
  | sign t body =>
    simp only [step] at h
    split at h
    · cases h
    · next hfree =>
      cases h
      refine ⟨hinv.set rfl (fun _ _ h => h) rfl fun x hx => ?_, ?_⟩
      · cases hx
        exact .decoded rfl
      · rw [inFlight_setSign]
        exact .called (by rw [inFlight, hfree]; rfl)
  | refuse t =>
    simp only [step] at h
    split at h
    · next body e hat =>
      cases h
      rcases hinv t _ hat with ⟨decode⟩
      exact good_effect s hinv hat rfl (fun _ _ h => h) rfl
        (IssuerConfig.sign_undecoded decode s.proc.rot s.proc.limiter 0 0) rfl rfl (.refused _ _)
    · cases h
  | lock t now =>
    simp only [step] at h
    split at h
    · next body auth hat =>
      cases h
      rcases hinv t _ hat with ⟨decode⟩
      exact good_silent { s with readers := insert t s.readers } hinv hat rfl rfl
        (Finset.subset_insert t s.readers) rfl (.locked (Finset.mem_insert_self _ _) rfl decode)
    · cases h
  | check t =>
    simp only [step] at h
    split at h
    · next body auth issuer now hat =>
      cases hinv t _ hat with
      | locked reads current decode =>
        split at h
        · next batch hpassed =>
          cases h
          exact good_silent s hinv hat rfl rfl subset_rfl rfl
            (.checked reads current decode hpassed)
        · next e hfailed =>
          cases h
          refine good_effect (s.unlock t) hinv hat rfl (hothers t) rfl
            (IssuerConfig.sign_unchecked decode (r := .err e) (fun limiter limiterNow => ?_)
              s.proc.limiter 0) rfl rfl (.refused _ _)
          simp only [issueAuthorizedWithLimit, hfailed]
        · next hfailed =>
          cases h
          refine good_effect (s.unlock t) hinv hat rfl (hothers t) rfl
            (IssuerConfig.sign_unchecked decode (r := .panic) (fun limiter limiterNow => ?_)
              s.proc.limiter 0) rfl rfl (.refused _ _)
          simp only [issueAuthorizedWithLimit, hfailed]
    · cases h
  | consume t limiterNow =>
    simp only [step] at h
    split at h
    · next body auth issuer now batch hat =>
      cases h
      cases hinv t _ hat with
      | checked reads current decode passed =>
        subst current
        let limiter :=
          (cfg.limiter.tryConsume s.proc.limiter limiterNow auth.rateLimitId batch).1
        exact good_effect { s with proc := { s.proc with limiter } } hinv hat rfl
          (fun _ _ h => h) rfl (IssuerConfig.sign_checked decode passed s.proc.limiter limiterNow)
          rfl rfl (.consumed _ _ _)
    · cases h
  | finish t =>
    simp only [step] at h
    split at h
    · next body issuer result hat =>
      cases h
      exact good_returned (s.unlock t) hinv hat rfl rfl (hothers t) rfl
    · next body reply hat =>
      cases h
      exact good_returned s hinv hat rfl rfl (fun _ _ h => h) rfl
    · cases h
  | other e =>
    simp only [step] at h
    split at h
    · cases h
    · split at h
      · cases h
      · next hfree =>
        obtain ⟨⟨p, r⟩, hp, heq⟩ := Option.map_eq_some_iff.mp h
        cases heq
        exact good_other hinv (fun hex => by_contra fun hne => hfree ⟨hex, hne⟩) hp

end Steps

/-! ## A handler that succeeds -/

section Succeeds

variable {s : IssuerTasks cfg} {t : Nat} {body : SignBody} {auth : IssuanceAuthorization}
  {issuer : Issuer} {now limiterNow : UInt64} {batch : UInt32}

theorem step_sign (hfree : s.signs t = none)
    (hdec : decodeAuthorization cfg.json body.authorizationB64 = .ok auth) :
    s.step (.sign t body)
      = some (s.setSign t (some (.decoded body (.ok auth))), .called t (.sign body)) := by
  simp only [step, hfree, hdec]

theorem step_check (hat : s.signs t = some (.locked body auth issuer now))
    (hpassed : authorizedBatch C cfg.attesterPub body.req auth now = .ok batch) :
    s.step (.check t)
      = some (s.setSign t (some (.checked body auth issuer now batch)), .silent) := by
  simp only [step, hat, hpassed]

theorem step_consume (hat : s.signs t = some (.checked body auth issuer now batch))
    {limiter : cfg.limiter.State} {result : Outcome RateLimitError Unit}
    (hquota : cfg.limiter.tryConsume s.proc.limiter limiterNow auth.rateLimitId batch
      = (limiter, result)) :
    s.step (.consume t limiterNow)
      = some ({ s with proc := { s.proc with limiter } }.setSign t
          (some (.consumed body issuer result)),
        .effect t (.sign body now limiterNow) (.sign (signReply C issuer body.req result))) := by
  simp only [step, hat, hquota]

end Succeeds

/-- **The requests in progress implement the issuer whose `sign` is one step.** -/
def implements (cfg : IssuerConfig C) :
    Implements (@IssuerProc.step C cfg) IssuerEvent.call (@step C cfg) where
  view s := s.proc
  inFlight := inFlight
  Inv := Inv
  keeps hinv hstep := (step_good hinv hstep).1
  follows hinv hstep := (step_good hinv hstep).2

end IssuerTasks

end EatPass
