import EatPass.Infra.Hex
import EatPass.Core.Http

/-!
# The mobile SDK

`EatPassClient` of `mobile/src/lib.rs`. A JSON text is modelled by what `serde_json` makes of it:
the value, or the text of its error. The blinding secrets stay inside the object between `begin`
and `finalize`, so both return the object as well.

No call panics while it holds the lock on `pending`, so the lock is never poisoned.
-/

namespace EatPass

open Infra

/-- `MobileError`. -/
inductive MobileError where
  | badIssuerKey (e : String)
  | badSignResponse (e : String)
  | noPendingRequest
  | core (e : String)
deriving DecidableEq

def MobileError.message : MobileError → String
  | .badIssuerKey e => "invalid issuer public key json: " ++ e
  | .badSignResponse e => "invalid sign response json: " ++ e
  | .noPendingRequest => "begin() must be called before finalize()"
  | .core e => "eat-pass core error: " ++ e

/-- `BeginResult`. -/
structure BeginResult where
  /-- What `request_json` is the JSON of. -/
  request : SignRequest
  bindingHex : String

/-- `EatPassClient`. -/
structure EatPassClient (C : Crypto) where
  pk : IssuerPublicKey
  challenge : TokenChallenge
  pending : Option (PendingTokens C)

variable (C : Crypto)

namespace EatPassClient

/-- `EatPassClient::new`. The challenge has the two names and no redemption context. -/
def new (issuerPkJson : Except String IssuerPublicKey) (issuerName originInfo : String) :
    Outcome MobileError (EatPassClient C) :=
  match issuerPkJson with
  | .error e => .err (.badIssuerKey e)
  | .ok pk =>
    .ok { pk := pk, challenge := TokenChallenge.new issuerName originInfo, pending := none }

/-- `token_key_id_hex`. -/
def tokenKeyIdHex (client : EatPassClient C) : String :=
  String.ofList (Hex.encode (client.pk.tokenKeyId C).val)

/-- `begin`; `count` is the length of the list of random values. A key can always be hashed and a
request always written, so it does not fail. -/
def begin (client : EatPassClient C) (coins : List (Bytes 32 × Bytes 32)) :
    EatPassClient C × BeginResult :=
  let (req, pending) := clientBeginRequest C client.pk client.challenge coins
  ({ client with pending := some pending },
    { request := req, bindingHex := String.ofList (Hex.encode req.body.binding.val) })

/-- `finalize`. The pending batch is taken out before it is finalised. -/
def finalize (client : EatPassClient C) (signResponseJson : Except String SignResponse) :
    EatPassClient C × Outcome MobileError (List String) :=
  match signResponseJson with
  | .error e => (client, .err (.badSignResponse e))
  | .ok resp =>
    match client.pending with
    | none => (client, .err .noPendingRequest)
    | some pending =>
      ({ client with pending := none },
        ((pending.finalize C client.pk resp).mapErr fun e => MobileError.core e.message) >>=
          fun tokens => .ok (tokens.map authorization))

end EatPassClient

/-! ## Calls of a host app -/

/-- A call on one client. -/
inductive ClientCall where
  | begin (coins : List (Bytes 32 × Bytes 32))
  | finalize (signResponseJson : Except String SignResponse)

/-- What the call returns. -/
inductive ClientReply where
  | begun (result : BeginResult)
  | finalized (result : Outcome MobileError (List String))

/-- The calls made on a client so far and what they returned, oldest first. -/
abbrev ClientHistory := List (ClientCall × ClientReply)

/-- One call. -/
def EatPassClient.step (client : EatPassClient C) :
    ClientCall → Option (EatPassClient C × ClientReply)
  | .begin coins => some ((client.begin C coins).1, .begun (client.begin C coins).2)
  | .finalize json => some ((client.finalize C json).1, .finalized (client.finalize C json).2)

/--
One issuance as a host app drives it: the client is made from the key the issuer publishes, and
the issuer signs the request it is sent.
-/
def sdkIssuance (issuer : Issuer) (issuerName originInfo : String)
    (coins : List (Bytes 32 × Bytes 32)) : Outcome MobileError (List String) := do
  let client ← EatPassClient.new C (.ok issuer.public) issuerName originInfo
  let (client, begun) := client.begin C coins
  let resp ← (issuer.blindSign C begun.request).mapErr fun e => MobileError.core e.message
  (client.finalize C (.ok resp)).2

/-- **An issuance through the SDK mints one header for each pair of random values**, with the
token that the two names without a context stand for. -/
theorem sdkIssuance_eq_ok (issuer : Issuer) (issuerName originInfo : String)
    (coins : List (Bytes 32 × Bytes 32)) :
    sdkIssuance C issuer issuerName originInfo coins
      = .ok ((coins.map (mintedToken C issuer (.new issuerName originInfo))).map
          authorization) := by
  have hmint := finalize_blindSign C issuer (.new issuerName originInfo) coins
  obtain ⟨resp, hresp, hfinal⟩ := Outcome.bind_eq_ok.mp hmint
  unfold sdkIssuance
  simp only [EatPassClient.new, EatPassClient.begin, Outcome.ok_bind, hresp, Outcome.mapErr_ok,
    EatPassClient.finalize, hfinal]

end EatPass
