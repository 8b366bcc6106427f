import EatPass.Core.Authorize
import EatPass.Core.Transparency

/-!
# Bodies on the wire

`cli/src/wire.rs`. A JSON body is modelled by the structure it decodes to: the framework refuses
a request whose body does not decode before a handler sees it. The one exception is the
authorization, which is JSON inside base64 inside JSON and is decoded by the handler.
-/

namespace EatPass

open Infra

/-- The status codes the services answer with. -/
inductive StatusCode where
  | ok
  | badRequest
  | unauthorized
  | forbidden
  | notFound
  | conflict
  | tooManyRequests
  | internalServerError
  | serviceUnavailable
deriving DecidableEq

/-- A handler's result. An error carries its status and the text of its `ErrorBody`. -/
abbrev Reply (α : Type) := Outcome (StatusCode × String) α

/-- The status that goes with a gate error, at the issuer and at the attester. -/
def GateError.reply (e : GateError) : StatusCode × String :=
  match e with
  | .quotaExceeded => (.tooManyRequests, e.message)
  | _ => (.forbidden, e.message)

/-- `serde_json` on authorizations: `to_vec` and `from_slice`. -/
structure AuthorizationJson where
  toVec : IssuanceAuthorization → List UInt8
  fromSlice : List UInt8 → Option IssuanceAuthorization

/-- `POST /sign`. -/
structure SignBody where
  req : SignRequest
  authorizationB64 : String
deriving DecidableEq

/-- `POST /authorize`. -/
structure AuthorizeBody where
  eatB64 : String
  binding : String
  maxBatch : UInt32
deriving DecidableEq

/-- The answer to `POST /authorize`, less the appraisal, which no service reads. -/
structure AuthorizeResponse where
  authorizationB64 : String
deriving DecidableEq

/-- `GET /kt`. -/
structure KtResponse where
  logPub : String
  records : List KeyRecord
  signedHead : SignedHead
deriving DecidableEq

/-- `hex::decode(kt.log_pub.trim()).unwrap_or_default()`. -/
def KtResponse.servedPub (kt : KtResponse) : List UInt8 :=
  (Hex.decode (trim kt.logPub.toList)).getD []

/-- The answer to `POST /rotate`. -/
structure RotateResponse where
  keyVersion : UInt32
  tokenKeyId : String
  ktSeq : UInt64
  head : String
deriving DecidableEq

/-- `POST /redeem`. -/
structure RedeemBody where
  keyEpoch : UInt32
  nonce : String
deriving DecidableEq

end EatPass
