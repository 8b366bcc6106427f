import EatPass.Infra.Locked
import EatPass.Mobile.Client

/-!
# Threads of a host app

An `EatPassClient` is shared through an `Arc`, so the threads of a host app may call it side by
side. `pk` and `challenge` never change; the mutex `pending` is taken once in each call, after the
request is built in `begin` and before the batch is finalised in `finalize`.

* `EatPassClient.locked_run` — done in one piece, the parts of a call are the call
-/

namespace EatPass

open Infra

variable (C : Crypto)

/-- What a call brings to the mutex. -/
inductive ClientReady where
  /-- `begin` stores the batch it has blinded. -/
  | store (pending : PendingTokens C) (result : BeginResult)
  /-- `finalize` takes the batch out, for a response it has read. -/
  | take (resp : SignResponse)

/-- What a call brings away from the mutex. -/
inductive ClientTaken where
  | stored (result : BeginResult)
  | took (resp : SignResponse) (pending : Option (PendingTokens C))

/-- The parts of the calls on a client. -/
def EatPassClient.locked (pk : IssuerPublicKey) (challenge : TokenChallenge) :
    Locked (Option (PendingTokens C)) ClientCall ClientReply where
  Ready := ClientReady C
  Taken := ClientTaken C
  prepare
    | .begin coins =>
      let (req, pending) := clientBeginRequest C pk challenge coins
      .inl (.store pending
        { request := req, bindingHex := String.ofList (Hex.encode req.body.binding.val) })
    | .finalize (.error e) => .inr (.finalized (.err (.badSignResponse e)))
    | .finalize (.ok resp) => .inl (.take resp)
  access
    | .store pending result, _ => (some pending, .stored result)
    | .take resp, held => (none, .took resp held)
  finish
    | .stored result => .begun result
    | .took _ none => .finalized (.err .noPendingRequest)
    | .took resp (some pending) =>
      .finalized (((pending.finalize C pk resp).mapErr fun e => MobileError.core e.message) >>=
        fun tokens => .ok (tokens.map authorization))

/-- The threads of a host app on one client. -/
abbrev ClientThreads (pk : IssuerPublicKey) (challenge : TokenChallenge) :=
  (EatPassClient.locked C pk challenge).System

variable {C}

/-- **Done in one piece, the parts of a call are the call.** -/
theorem EatPassClient.locked_run (client : EatPassClient C) (call : ClientCall) :
    client.step C call = some
      ({ client with pending :=
          ((EatPassClient.locked C client.pk client.challenge).run client.pending call).1 },
        ((EatPassClient.locked C client.pk client.challenge).run client.pending call).2) := by
  cases call with
  | begin coins => rfl
  | finalize json =>
    cases json with
    | error e => rfl
    | ok resp =>
      simp only [step, finalize]
      cases hp : client.pending with
      | none =>
        refine congrArg some (Prod.ext ?_ rfl)
        show client = { client with pending := none }
        rw [← hp]
      | some pending => rfl

/-- What the threads see is explained by calls on the client, one after the other. -/
theorem EatPassClient.threads_linearization {client : EatPassClient C}
    {h : List (Locked.Event ClientCall × Mark ClientCall ClientCall ClientReply)}
    {s : ClientThreads C client.pk client.challenge}
    (ht : Trace (Locked.step _) (Locked.start _ client.pending) h s) :
    Linearization id (EatPassClient.step C) client (h.map Prod.snd)
      (points (h.map Prod.snd)) := by
  refine (Locked.linearization ht).image (fun pending => { client with pending }) ?_
  intro pending call pending' reply hrun
  have hcall := EatPassClient.locked_run { client with pending } call
  rw [show (EatPassClient.locked C client.pk client.challenge).run pending call = (pending', reply)
    from Option.some.inj hrun] at hcall
  exact hcall

end EatPass
