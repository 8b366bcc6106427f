import EatPass.Desktop.Mint
import EatPass.Infra.Crowd
import EatPass.Mobile.Ffi

/-!
# The Windows SDK

`MintAuthorizationHeaderAsync` of `desktop/sdk-windows/EatPass.Desktop/EatPassDesktopClient.cs`. The
client of `mobile/src/lib.rs` is not linked in: `EatPassNative.cs` starts the stdio helper and calls
it, one line for each call. The mints of a process share the helper. A call holds a lock from the
line it writes to the line it reads, so it is one step; between two calls of a mint there may be
calls of others.

An answer of a service or of the collector is what its body is read as, or an exception, which may
be a cancellation. The helper may exit at any time, and then every call on it throws.
-/

namespace EatPass

open Infra

/-- What a mint throws. -/
inductive WindowsFailure where
  /-- `EatPassException`. -/
  | eatPass (message : String)
  /-- Another exception. -/
  | raised (what : String)
deriving DecidableEq

/-- `EatPassConfig`, less what is used to reach the services and to collect evidence. It has the
fields and the defaults of the Python SDK. -/
abbrev EatPassConfig := EatPassBaseConfig

/-! ## Questions -/

/-- What a mint asks the services and the collector. -/
inductive ServiceQuestion where
  | keys
  | kt
  | collect (bindingHex : String)
  | authorize (body : AuthorizeBody)
  | sign (body : SignBody)

/-- What an answer is read as: the text `log_pub` for `kt`, the authorization for `authorize`. -/
abbrev ServiceQuestion.Value : ServiceQuestion → Type
  | keys => Except String IssuerPublicKey
  | kt | collect _ | authorize _ => String
  | sign _ => Except String SignResponse

abbrev ServiceQuestion.Answer (q : ServiceQuestion) : Type := Except WindowsFailure q.Value

/-- An answer of the helper, with the text of its error, or the exception if there is none. -/
abbrev RpcAnswer := Except WindowsFailure (Except String FfiResult)

section

variable {K : Type} {R : K → Type}

/-- Asks a service or the collector. -/
def askService (q : ServiceQuestion) :
    Caller ServiceQuestion.Answer R WindowsFailure q.Value := do
  let a ← askOutside q
  Talk.lift (Outcome.ofExcept id a)

/-- `MintAuthorizationHeaderAsync` up to the client: the served key and the check of the pin. -/
def fetchKeys (equalsIgnoreCase : String → String → Bool) (config : EatPassConfig) :
    Caller ServiceQuestion.Answer R WindowsFailure (Except String IssuerPublicKey) := do
  let keysJson ← askService .keys
  match config.ktLogPubHex with
  | none => return keysJson
  | some pin =>
    let served ← askService .kt
    Talk.lift (Outcome.require (equalsIgnoreCase served pin = true)
      (.eatPass "issuer KT log pubkey does not match pinned key"))
    return keysJson

/-- `MintAuthorizationHeaderAsync` between `Begin` and `Finalize`. -/
def askForSignatures (begun : BeginResult) :
    Caller ServiceQuestion.Answer R WindowsFailure (Except String SignResponse) := do
  let bundleJson ← askService (.collect begun.bindingHex)
  let eatB64 := String.ofList (Base64.encode .standard (utf8 bundleJson))
  let authorizationB64 ← askService (.authorize
    { eatB64, binding := begun.bindingHex, maxBatch := 1 })
  askService (.sign { req := begun.request, authorizationB64 })

end

/-! ## The helper -/

/-- A part of a mint. -/
abbrev WindowsTalk (α : Type) :=
  Caller ServiceQuestion.Answer (fun _ : FfiLine => RpcAnswer) WindowsFailure α

/-- A line with an operation and an id. `serde_json` reads the absent fields as their defaults, and
the empty text as no JSON. -/
def rpcLine (op : String) (id : UInt64) : FfiLine where
  op := op
  id := id
  issuerPkJson := .error "EOF while parsing a value at line 1 column 0"
  issuerName := ""
  originInfo := ""
  count := 0
  signResponseJson := .error "EOF while parsing a value at line 1 column 0"

/-- The line of `CreateClient`. -/
def newLine (issuerPkJson : Except String IssuerPublicKey) (issuerName originInfo : String) :
    FfiLine :=
  { rpcLine "new" 0 with issuerPkJson, issuerName, originInfo }

/-- The line of `Begin`. -/
def beginLine (id : UInt64) (count : UInt32) : FfiLine := { rpcLine "begin" id with count }

/-- The line of `Finalize`. -/
def finalizeLine (id : UInt64) (signResponseJson : Except String SignResponse) : FfiLine :=
  { rpcLine "finalize" id with signResponseJson }

/-- The line of `Drop`. -/
def dropLine (id : UInt64) : FfiLine := rpcLine "drop" id

/-- `Rpc`. -/
def rpc (line : FfiLine) : WindowsTalk FfiResult := do
  let out ← callDesk line
  let root ← Talk.lift (Outcome.ofExcept id out)
  Talk.lift (Outcome.ofExcept .eatPass root)

/-- The exception for a member that is not there. -/
def keyNotFound {α : Type} : Outcome WindowsFailure α := .err (.raised "KeyNotFoundException")

/-- `CreateClient`. -/
def createClient (issuerPkJson : Except String IssuerPublicKey) (issuerName originInfo : String) :
    WindowsTalk UInt64 := do
  match ← rpc (newLine issuerPkJson issuerName originInfo) with
  | .id id => return id
  | _ => Talk.lift keyNotFound

/-- `Begin`. -/
def nativeBegin (id : UInt64) (count : UInt32) : WindowsTalk BeginResult := do
  match ← rpc (beginLine id count) with
  | .begun result => return result
  | _ => Talk.lift keyNotFound

/-- `Finalize`. -/
def nativeFinalize (id : UInt64) (signResponseJson : Except String SignResponse) :
    WindowsTalk String := do
  match ← rpc (finalizeLine id signResponseJson) with
  | .authorizationHeader header => return header
  | _ => Talk.lift keyNotFound

/-- `NativeClient.Dispose`: what `Drop` throws is dropped too. -/
def nativeDispose (id : UInt64) : WindowsTalk Unit := do
  let _ ← callDesk (dropLine id)
  return ()

/-- The body of the `try` of `MintAuthorizationHeaderAsync`. -/
def mintWith (id : UInt64) : WindowsTalk MintResult := do
  let begun ← nativeBegin id 1
  let signJson ← askForSignatures begun
  let header ← nativeFinalize id signJson
  return { authorizationHeader := header, bindingHex := begun.bindingHex }

/-- `MintAuthorizationHeaderAsync`. The client is disposed of however the body ends. -/
def mintAuthorizationHeaderAsync (equalsIgnoreCase : String → String → Bool)
    (config : EatPassConfig) : WindowsTalk MintResult := do
  let keysJson ← fetchKeys equalsIgnoreCase config
  let id ← createClient keysJson config.issuerName config.originInfo
  (mintWith id).andFinally (nativeDispose id)

variable (C : Crypto)

/-- What a call on the helper depends on: the random values of a `begin`, and what is thrown if the
helper is gone. -/
structure RpcChance where
  random : Nat → Bytes 32 × Bytes 32
  failure : WindowsFailure

/-- The helper as the mints find it; `none` once it has exited. -/
def helperDesk : Desk (fun _ : FfiLine => RpcAnswer) where
  State := Option (FfiState C)
  Chance := RpcChance
  Move := Unit
  serve
    | none, chance, _ => (none, .error chance.failure)
    | some s, chance, line =>
      match s.handle C line chance.random with
      | (s', .ok result) => (some s', .ok (.ok result))
      | (s', .err message) => (some s', .ok (.error message))
      | (_, .panic) => (none, .error chance.failure)
  move _ _ := none

/-- A process with its mints and its helper. -/
abbrev WindowsProcess :=
  Crowd (helperDesk C) ServiceQuestion.Answer EatPassConfig WindowsFailure MintResult

/-- The process before its first mint. -/
def WindowsProcess.start : WindowsProcess C := Crowd.start (some (.start C))

/-- One step of the process. -/
def WindowsProcess.step (equalsIgnoreCase : String → String → Bool) (s : WindowsProcess C)
    (e : Crowd.Event (helperDesk C) ServiceQuestion.Answer EatPassConfig) :
    Option (WindowsProcess C × Unit) :=
  Crowd.step (mintAuthorizationHeaderAsync equalsIgnoreCase) s e

/-! ## What a mint is -/

/-- A program that asks the services and nobody else. -/
abbrev DirectTalk (α : Type) :=
  Caller ServiceQuestion.Answer (fun _ : Empty => Empty) WindowsFailure α

/-- The mint of an SDK with the client linked in, with the two values its `begin` draws. -/
def directMint (equalsIgnoreCase : String → String → Bool) (config : EatPassConfig)
    (coins : Bytes 32 × Bytes 32) : DirectTalk MintResult := do
  let keysJson ← fetchKeys equalsIgnoreCase config
  let client ← Talk.lift ((EatPassClient.new C keysJson config.issuerName config.originInfo).mapErr
    fun e => .eatPass e.message)
  let (client, begun) := client.begin C [coins]
  let signJson ← askForSignatures begun
  let headers ← Talk.lift ((client.finalize C signJson).2.mapErr fun e => .eatPass e.message)
  match headers with
  | [] => Talk.lift (.err (.eatPass "issuer returned no token"))
  | header :: _ => return { authorizationHeader := header, bindingHex := begun.bindingHex }

end EatPass
