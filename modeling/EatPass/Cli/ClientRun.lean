import EatPass.Cli.Client
import EatPass.Core.Http
import EatPass.Infra.Talk

/-!
# A run of the client

`eat-pass token`: `run` of `cli/src/client.rs` as a program that asks. Its questions are the
requests it sends, the commands and files it uses to collect evidence, and the lines it prints that
are read again: the head it has seen and the tokens. What the services and the collector answer is
arbitrary.

The random values are arguments, and their number is `count`. A request to a service is answered by
the error of the request or what its body is read as.
-/

namespace EatPass

open Infra

/-! ## Questions -/

/-- What a run asks the outside. -/
inductive ClientQuestion where
  /-- `GET /keys` of the issuer. -/
  | keys
  /-- `GET /kt` of the issuer. -/
  | kt
  /-- The line `kt-head` that is kept for the next run. -/
  | ktHead (line : String)
  /-- `GET` of the resource, without a token. -/
  | resource (url : String)
  | stdin
  | readFile (path : String)
  /-- `tempfile_path`: a fresh name in the directory for temporary files. -/
  | tempfilePath (pre ext : String)
  /-- A command with its arguments, and what is added to its environment. -/
  | spawn (argv : List String) (env : List (String × String))
  | removeFile (path : String)
  /-- `POST /authorize` of the attester. -/
  | authorize (body : AuthorizeBody)
  /-- `POST /sign` of the issuer. -/
  | sign (body : SignBody)
  /-- A line on the standard output. -/
  | print (line : String)
  /-- `GET` of the resource with a token. -/
  | present (url header : String)
deriving DecidableEq

/-- `http::StatusCode`: the number, and the text it is displayed as, such as `403 Forbidden`. -/
structure HttpStatus where
  code : Nat
  text : String

/-- `std::process::ExitStatus`: whether the command succeeded, and the text it is displayed as. -/
structure ExitStatus where
  success : Bool
  text : String

/-- The answer of the resource to a request without a token. -/
structure ResourceAnswer where
  status : HttpStatus
  /-- `www-authenticate`, if it is there and readable. -/
  wwwAuthenticate : Option String

/-- The issuer's answer to `/sign`. -/
inductive SignAnswer where
  | rejected (status : HttpStatus) (text : String)
  | body (response : Except String SignResponse)

/-- What a question is answered by. -/
abbrev ClientQuestion.Answer : ClientQuestion → Type
  | keys => Except String (Except String IssuerPublicKey)
  | kt => Except String (Except String KtResponse)
  | ktHead _ => Unit
  | resource _ => Except String ResourceAnswer
  | stdin => Except String (List UInt8)
  | readFile _ => Except String (List UInt8)
  | tempfilePath _ _ => Except String String
  | spawn _ _ => Except String ExitStatus
  | removeFile _ => Unit
  | authorize _ => Except String (Except String AuthorizeResponse)
  | sign _ => Except String SignAnswer
  | print _ => Unit
  | present _ _ => Except String (HttpStatus × String)

/-- A part of the run. -/
abbrev ClientTalk (α : Type) := Talk ClientQuestion ClientQuestion.Answer String α

/-- What has been said. -/
abbrev ClientLog := Talk.Log ClientQuestion ClientQuestion.Answer

/-! ## Evidence -/

inductive EvidenceInput where
  | file (path : String)
  | azureCommand (cmd : String)
  | desktopTpm (script buildDigest : String)
deriving DecidableEq

/-- `str::split_whitespace`. -/
def splitWhitespace (text : List Char) : List (List Char) :=
  (text.splitOnP isWhitespace).filter (· ≠ [])

/-- `read_evidence_file`. -/
def readEvidenceFile (path : String) : ClientTalk (List UInt8) :=
  if path = "-" then do
    let bytes ← Talk.question .stdin
    Talk.lift (Outcome.ofExcept ("read evidence from stdin: " ++ ·) bytes)
  else do
    let bytes ← Talk.question (.readFile path)
    Talk.lift (Outcome.ofExcept ("read evidence " ++ path ++ ": " ++ ·) bytes)

/-- `collect_evidence`. -/
def collectEvidence (input : EvidenceInput) (binding : Bytes 32) : ClientTalk (List UInt8) :=
  let bindingHex := String.ofList (Hex.encode binding.val)
  match input with
  | .file path => readEvidenceFile path
  | .azureCommand cmd => do
    let out ← Talk.question (.tempfilePath "eatpass-azure-bundle" "json")
    let out ← Talk.lift (Outcome.ofExcept ("rng: " ++ ·) out)
    let argv := (splitWhitespace cmd.toList).map String.ofList
    Talk.lift (Outcome.require (argv ≠ []) "azure collect command is empty")
    let status ← Talk.question (.spawn (argv ++ ["--value-x", bindingHex, "-o", out]) [])
    let status ← Talk.lift (Outcome.ofExcept ("spawn `" ++ cmd ++ "`: " ++ ·) status)
    Talk.lift (Outcome.require (status.success = true)
      ("`" ++ cmd ++ " --value-x " ++ bindingHex ++ "` exited with " ++ status.text))
    let bytes ← Talk.question (.readFile out)
    let bytes ← Talk.lift (Outcome.ofExcept ("read collected bundle " ++ out ++ ": " ++ ·) bytes)
    Talk.question (ClientQuestion.removeFile out)
    return bytes
  | .desktopTpm script buildDigest => do
    let out ← Talk.question (.tempfilePath "eatpass-desktop-tpm" "json")
    let out ← Talk.lift (Outcome.ofExcept ("rng: " ++ ·) out)
    let status ← Talk.question (.spawn ["bash", script, "-o", out]
      [("BINDING", bindingHex), ("BUILD_DIGEST", buildDigest)])
    let status ← Talk.lift
      (Outcome.ofExcept ("spawn desktop tpm collect `" ++ script ++ "`: " ++ ·) status)
    Talk.lift (Outcome.require (status.success = true)
      ("desktop tpm collect exited with " ++ status.text))
    let bytes ← Talk.question (.readFile out)
    Talk.lift (Outcome.ofExcept ("read " ++ out ++ ": " ++ ·) bytes)

/-! ## The run -/

/-- The arguments of `run`, less where the services are. -/
structure RunArgs where
  evidence : EvidenceInput
  issuerName : String
  originInfo : String
  /-- `--present`: the resource to present the first token to. -/
  present : Option String
  ktLogPub : Bytes 32
  ktKnownHead : Option SignedHead

/-- `fetch_origin_challenge`. -/
def fetchOriginChallenge (resourceUrl : String) : ClientTalk TokenChallenge := do
  let r ← Talk.question (.resource resourceUrl)
  let r ← Talk.lift (Outcome.ofExcept id r)
  Talk.lift (Outcome.require (r.status.code = 401) ("expected 401 from origin at " ++ resourceUrl
    ++ ", got " ++ r.status.text))
  let header ← Talk.lift (Outcome.ofOption
    ("401 from " ++ resourceUrl ++ " missing WWW-Authenticate header") r.wwwAuthenticate)
  Talk.lift ((parseWwwAuthenticate header).mapErr fun e => "parse challenge: " ++ e.message)

/-- The challenge the tokens are made for. -/
def RunArgs.challenge (args : RunArgs) : ClientTalk TokenChallenge :=
  match args.present with
  | some resourceUrl => fetchOriginChallenge resourceUrl
  | none => return TokenChallenge.new args.issuerName args.originInfo

/-- Prints the tokens, one line for each. -/
def printTokens : List SpendToken → ClientTalk Unit
  | [] => return ()
  | t :: rest => do
    Talk.question (ClientQuestion.print (authorization t))
    printTokens rest

/-- The end of `run`: the first token is presented and the page is printed. -/
def presentFirst (present : Option String) (tokens : List SpendToken) : ClientTalk Unit :=
  match present with
  | none => return ()
  | some resourceUrl => do
    let first ← Talk.lift (Outcome.ofOption "no tokens" tokens.head?)
    let r ← Talk.question (.present resourceUrl (authorization first))
    let (_, text) ← Talk.lift (Outcome.ofExcept id r)
    Talk.question (ClientQuestion.print text)

variable (C : Crypto)

/-- `run` up to the transparency checks: the key that the rest of the run uses. -/
def fetchCheckedKey (p : Profile) (args : RunArgs) : ClientTalk IssuerPublicKey := do
  let pk ← Talk.question .keys
  let pk ← Talk.lift (Outcome.ofExcept id pk)
  let pk ← Talk.lift (Outcome.ofExcept id pk)
  let kt ← Talk.question .kt
  let kt ← Talk.lift (Outcome.ofExcept id kt)
  let kt ← Talk.lift (Outcome.ofExcept id kt)
  let (_, line) ← Talk.lift (ktChecks C p args.ktLogPub args.ktKnownHead pk kt)
  Talk.question (ClientQuestion.ktHead line)
  return pk

/-- What `run` asks of the attester: the authorization for the request, for fresh evidence. -/
def requestAuthorization (args : RunArgs) (req : SignRequest) (count : Nat) :
    ClientTalk AuthorizeResponse := do
  let eat ← collectEvidence args.evidence req.body.binding
  let auth ← Talk.question (.authorize (authorizeBody eat req count))
  let auth ← Talk.lift (Outcome.ofExcept id auth)
  Talk.lift (Outcome.ofExcept id auth)

/-- What `run` asks of the issuer: the blind signatures. -/
def requestSignatures (body : SignBody) : ClientTalk SignResponse := do
  let r ← Talk.question (.sign body)
  let r ← Talk.lift (Outcome.ofExcept id r)
  match r with
  | .rejected status text =>
    Talk.lift (.err ("issuer rejected /sign (" ++ status.text ++ "): " ++ text))
  | .body response => Talk.lift (Outcome.ofExcept id response)

/-- `run`. -/
def clientRun (p : Profile) (args : RunArgs) (coins : List (Bytes 32 × Bytes 32)) :
    ClientTalk Unit := do
  let pk ← fetchCheckedKey C p args
  let challenge ← args.challenge
  let (req, pending) := clientBeginRequest C pk challenge coins
  let auth ← requestAuthorization args req coins.length
  let signResp ← requestSignatures { req, authorizationB64 := auth.authorizationB64 }
  let tokens ← Talk.lift ((pending.finalize C pk signResp).mapErr fun e =>
    "finalize: " ++ e.message)
  printTokens tokens
  presentFirst args.present tokens

/-! ## The command -/

/-- The arguments of `eat-pass token`. -/
structure TokenArgs where
  evidence : Option String
  attestMode : String
  uqCollect : Option String
  desktopCollect : Option String
  buildDigest : Option String
  desktopBundle : Option String
  issuerName : String
  originInfo : String
  present : Option String
  ktLogPub : String
  ktKnownHead : Option String

/-- How `main` reads the arguments about evidence. -/
def TokenArgs.evidenceInput (args : TokenArgs) : Outcome String EvidenceInput :=
  match args.evidence.or args.desktopBundle with
  | some path => .ok (.file path)
  | none =>
    if args.attestMode = "azure" then .ok (.azureCommand (args.uqCollect.getD "uq azure collect"))
    else if args.attestMode = "desktop-tpm" then
      match args.buildDigest with
      | some buildDigest => .ok (.desktopTpm
          (args.desktopCollect.getD "scripts/collect-desktop-tpm.sh") buildDigest)
      | none => .err "--build-digest required for desktop-tpm attest mode"
    else if args.attestMode = "desktop-bundle" then
      .err "--desktop-bundle requires a file path; prefer --evidence FILE"
    else .err ("unknown --attest-mode '" ++ args.attestMode
      ++ "' (expected azure, desktop-tpm, desktop-bundle)")

/-- What `main` makes of the arguments. -/
def TokenArgs.runArgs (args : TokenArgs) : Outcome String RunArgs := do
  let evidence ← args.evidenceInput
  let ktLogPub ← parseHex32 args.ktLogPub.toList "kt-log-pub"
  let ktKnownHead ← knownHeadArg args.ktKnownHead
  return { evidence
           issuerName := args.issuerName
           originInfo := args.originInfo
           present := args.present
           ktLogPub
           ktKnownHead }

/-- `eat-pass token`. -/
def tokenCommand (p : Profile) (args : TokenArgs) (coins : List (Bytes 32 × Bytes 32)) :
    ClientTalk Unit := do
  let args ← Talk.lift args.runArgs
  clientRun C p args coins

end EatPass
