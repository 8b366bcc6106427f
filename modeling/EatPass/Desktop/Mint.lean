import EatPass.Cli.Wire
import EatPass.Mobile.Client

/-!
# The desktop SDK

`mint_authorization_header` of `desktop/sdk-python/eatpass_desktop/mint.py`, around the client of
`mobile/src/lib.rs`. An answer of a service is the error of the request or what its body is read as.
The body of `/kt` is read twice: the SDK asks the JSON object for one text, the CLI client reads the
whole structure.
-/

namespace EatPass

open Infra

/-- `str.lower` of Python. It follows the tables of Unicode, of which only this is used: a text with
the lower case of hexadecimal digits has the same digits, in either case. -/
structure PythonStr where
  lower : String → String
  lower_hex : ∀ s t, lower s = lower t →
    (∀ c ∈ t.toList, isWhitespace c = true ∨ ∃ n, Hex.digitValue c = some n) →
    s.toList.map Char.toLower = t.toList.map Char.toLower

/-- `EatPassBaseConfig`, less what is used to reach the services. -/
structure EatPassBaseConfig where
  issuerName : String := "issuer.eat-pass.dev"
  originInfo : String := "tool-gate.secure.build/v1/tools/email.send"
  ktLogPubHex : Option String := none

/-- The body of `/kt`. -/
structure KtBody where
  /-- `json.loads(body).get("log_pub", "")`, or the exception if it is no text. -/
  served : Except String String
  /-- What `serde_json` reads. -/
  parsed : Except String KtResponse
  agree : ∀ text kt, served = .ok text → parsed = .ok kt → text = kt.logPub

/-- What ends `mint_authorization_header` without a result. -/
inductive MintFailure where
  /-- `MintError`. -/
  | mintError (what : String)
  /-- The error of a call to the client. -/
  | mobile (e : MobileError)
  /-- Another exception, of `json` or of a member that is missing. -/
  | raised (what : String)

structure MintResult where
  authorizationHeader : String
  bindingHex : String

/-- The services, as a mint finds them. The authorization is taken to be a text. -/
structure MintServices where
  keys : Except String (Except String IssuerPublicKey)
  kt : Except String KtBody
  authorize : AuthorizeBody → Except String (Except String AuthorizeResponse)
  sign : SignBody → Except String (Except String SignResponse)

variable (C : Crypto) (str : PythonStr)

/-- The check of `kt_log_pub_hex`. No pin and the empty text are both false to Python. -/
def checkKtPin (ktLogPubHex : Option String) (kt : Except String KtBody) :
    Outcome MintFailure Unit :=
  match ktLogPubHex with
  | none => .ok ()
  | some pin =>
    if pin = "" then .ok ()
    else do
      let body ← Outcome.ofExcept .mintError kt
      let served ← Outcome.ofExcept .raised body.served
      Outcome.require (str.lower served = str.lower pin)
        (.mintError "issuer KT log pubkey does not match pinned key")

/-- `mint_authorization_header` up to `begin`. -/
def mintClient (config : EatPassBaseConfig) (keys : Except String (Except String IssuerPublicKey))
    (kt : Except String KtBody) : Outcome MintFailure (EatPassClient C) := do
  let keysJson ← Outcome.ofExcept .mintError keys
  checkKtPin str config.ktLogPubHex kt
  (EatPassClient.new C keysJson config.issuerName config.originInfo).mapErr .mobile

/-- `mint_authorization_header`, with the two values `begin` draws for its token. -/
def mintAuthorizationHeader (config : EatPassBaseConfig) (services : MintServices)
    (collectBundleJson : String → Except MintFailure String) (coins : Bytes 32 × Bytes 32) :
    Outcome MintFailure MintResult := do
  let client ← mintClient C str config services.keys services.kt
  let (client, begin) := client.begin C [coins]
  let bundleJson ← Outcome.ofExcept id (collectBundleJson begin.bindingHex)
  let eatB64 := String.ofList (Base64.encode .standard (utf8 bundleJson))
  let authResp ← Outcome.ofExcept .mintError
    (services.authorize { eatB64, binding := begin.bindingHex, maxBatch := 1 })
  let authResp ← Outcome.ofExcept .raised authResp
  let signResp ← Outcome.ofExcept .mintError
    (services.sign { req := begin.request, authorizationB64 := authResp.authorizationB64 })
  let headers ← (client.finalize C signResp).2.mapErr .mobile
  match headers with
  | [] => .err (.mintError "issuer returned no token")
  | header :: _ => .ok { authorizationHeader := header, bindingHex := begin.bindingHex }

/-! ## What is minted -/

variable {C str}

/-- **With a pin the client is made of a readable key as soon as the served text is the pinned one
in some case.** Nothing else of the answer to `/kt` is looked at. -/
theorem mintClient_eq_ok {config : EatPassBaseConfig} {pin : String}
    (hpin : config.ktLogPubHex = some pin) (hne : pin ≠ "")
    {keys : Except String (Except String IssuerPublicKey)} {kt : Except String KtBody}
    {client : EatPassClient C} :
    mintClient C str config keys kt = .ok client ↔
      ∃ pk body text, keys = .ok (.ok pk) ∧ kt = .ok body ∧ body.served = .ok text ∧
        str.lower text = str.lower pin ∧
        client = ⟨pk, .new config.issuerName config.originInfo, none⟩ := by
  simp only [mintClient, checkKtPin, hpin, if_neg hne, Outcome.bind_eq_ok, Outcome.ofExcept_eq_ok,
    Outcome.require_eq_ok, Outcome.mapErr_eq_ok]
  constructor
  · rintro ⟨keysJson, rfl, _, ⟨body, rfl, text, htext, hlower⟩, hnew⟩
    cases keysJson with
    | error e => cases hnew
    | ok pk => exact ⟨pk, body, text, rfl, rfl, htext, hlower, (Outcome.ok.inj hnew).symm⟩
  · rintro ⟨pk, body, text, rfl, rfl, htext, hlower, rfl⟩
    exact ⟨.ok pk, rfl, (), ⟨body, rfl, text, htext, hlower⟩, rfl⟩

/-- **A mint with an honest issuer ends in the header of its token.** -/
theorem mintAuthorizationHeader_eq_ok {config : EatPassBaseConfig} {services : MintServices}
    {collectBundleJson : String → Except MintFailure String} {client : EatPassClient C}
    {issuer : Issuer} {bundleJson : String} {auth : AuthorizeResponse}
    (hclient : mintClient C str config services.keys services.kt = .ok client)
    (hpk : client.pk = issuer.public)
    (hbundle : ∀ binding, collectBundleJson binding = .ok bundleJson)
    (hauth : ∀ body, services.authorize body = .ok (.ok auth))
    (hsign : ∀ body, services.sign body = .ok (.ok (issuerSign C issuer.sk body.req.body)))
    (coins : Bytes 32 × Bytes 32) :
    ∃ result, mintAuthorizationHeader C str config services collectBundleJson coins = .ok result ∧
      result.authorizationHeader = authorization (mintedToken C issuer client.challenge coins) := by
  have hfinal := finalize_blindSign C issuer client.challenge [coins]
  simp only [Issuer.blindSign, clientBeginRequest, Issuer.public_keyVersion, Outcome.require_pos,
    Outcome.ok_bind, Outcome.pure_eq_ok, List.map_cons, List.map_nil] at hfinal
  unfold mintAuthorizationHeader
  simp only [hclient, Outcome.ok_bind, EatPassClient.begin, clientBeginRequest, hbundle, hauth,
    hsign, Outcome.ofExcept_ok, EatPassClient.finalize, hpk, hfinal, Outcome.mapErr_ok,
    List.map_cons, List.map_nil]
  exact ⟨_, rfl, rfl⟩

end EatPass
