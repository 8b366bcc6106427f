import EatPass.Desktop.Mint
import EatPass.Properties.ClientRuns

/-!
# Two clients

The CLI client and the desktop SDK mint against the same answers.

* `desktop_mint_agrees` — the client prints a header exactly if its checks of the log pass and the
  SDK returns the same header
-/

namespace EatPass

open Infra

/-! ## What is printed -/

/-- The lines on the standard output. -/
def printed (l : ClientLog) : List String :=
  l.filterMap fun x =>
    match x.1 with
    | .print line => some line
    | _ => none

/-- The question is no line on the standard output. -/
def ClientQuestion.IsPrint : ClientQuestion → Prop
  | .print _ => True
  | _ => False

theorem printed_eq_nil {α : Type} {t : ClientTalk α} (h : t.Avoids ClientQuestion.IsPrint)
    (env : (q : ClientQuestion) → q.Answer) : printed (t.transcript env) = [] := by
  refine List.filterMap_eq_nil_iff.mpr fun x hx => ?_
  have hno := h _ _ (Talk.says_transcript env t) x hx
  obtain ⟨q, a⟩ := x
  cases q <;> first | rfl | exact absurd trivial hno

theorem printed_append (l l' : ClientLog) : printed (l ++ l') = printed l ++ printed l' :=
  List.filterMap_append

variable {C : Crypto} {p : Profile} {args : RunArgs} {coins : List (Bytes 32 × Bytes 32)}

theorem fetchCheckedKey_avoids : (fetchCheckedKey C p args).Avoids ClientQuestion.IsPrint := by
  unfold fetchCheckedKey
  refine .question_bind id fun _ => .lift_bind fun _ => .lift_bind fun _ => ?_
  refine .question_bind id fun _ => .lift_bind fun _ => .lift_bind fun _ => .lift_bind fun _ => ?_
  exact .question_bind id fun _ => .lift _

theorem collectEvidence_avoids (input : EvidenceInput) (binding : Bytes 32) :
    (collectEvidence input binding).Avoids ClientQuestion.IsPrint := by
  cases input with
  | file path =>
    simp only [collectEvidence, readEvidenceFile]
    split <;> exact .question_bind id fun _ => .lift _
  | azureCommand cmd =>
    refine .question_bind id fun _ => .lift_bind fun _ => .lift_bind fun _ => ?_
    refine .question_bind id fun _ => .lift_bind fun _ => .lift_bind fun _ => ?_
    refine .question_bind id fun _ => .lift_bind fun _ => .question_bind id fun _ => .lift _
  | desktopTpm script buildDigest =>
    refine .question_bind id fun _ => .lift_bind fun _ => .question_bind id fun _ => ?_
    refine .lift_bind fun _ => .lift_bind fun _ => .question_bind id fun _ => .lift _

theorem requestAuthorization_avoids (req : SignRequest) (count : Nat) :
    (requestAuthorization args req count).Avoids ClientQuestion.IsPrint :=
  .bind (collectEvidence_avoids args.evidence _) fun _ => .question_bind id fun _ =>
    .lift_bind fun _ => .lift _

theorem requestSignatures_avoids (body : SignBody) :
    (requestSignatures body).Avoids ClientQuestion.IsPrint := by
  refine .question_bind id fun _ => .lift_bind fun r => ?_
  cases r <;> exact .lift _

variable {env : (q : ClientQuestion) → q.Answer}

theorem printTokens_answered : ∀ tokens : List SpendToken,
    (printTokens tokens).answered env = .ok () ∧
      printed ((printTokens tokens).transcript env) = tokens.map authorization
  | [] => ⟨rfl, rfl⟩
  | _ :: rest => by
    obtain ⟨hok, hlines⟩ := printTokens_answered rest
    exact ⟨hok, congrArg (List.cons _) hlines⟩

/-- The tokens are the last thing a run prints. -/
theorem printTokens_last {tokens : List SpendToken} {lines : List String} :
    (printTokens tokens >>= fun _ => Talk.lift (.ok ())).answered env = .ok () ∧
        printed ((printTokens tokens >>= fun _ => Talk.lift (.ok ())).transcript env) = lines ↔
      tokens.map authorization = lines := by
  obtain ⟨hok, hlines⟩ := @printTokens_answered env tokens
  rw [Talk.answered_bind, Talk.transcript_bind hok, hok, printed_append, hlines]
  simp [Talk.lift, Talk.answered, Talk.transcript, printed]

/-- A first part that prints nothing. -/
theorem bind_prints {α : Type} {t : ClientTalk α} {f : α → ClientTalk Unit}
    (ht : t.Avoids ClientQuestion.IsPrint) {lines : List String} :
    (t >>= f).answered env = .ok () ∧ printed ((t >>= f).transcript env) = lines ↔
      ∃ a, t.answered env = .ok a ∧
        (f a).answered env = .ok () ∧ printed ((f a).transcript env) = lines := by
  rw [Talk.answered_bind, Outcome.bind_eq_ok]
  constructor
  · rintro ⟨⟨a, ha, hok⟩, hlines⟩
    rw [Talk.transcript_bind ha, printed_append, printed_eq_nil ht, List.nil_append] at hlines
    exact ⟨a, ha, hok, hlines⟩
  · rintro ⟨a, ha, hok, hlines⟩
    rw [Talk.transcript_bind ha, printed_append, printed_eq_nil ht, List.nil_append]
    exact ⟨⟨a, ha, hok⟩, hlines⟩

/-- **What a run without a resource prints**: the tokens, if every part of it ends well. -/
theorem clientRun_answered (hpresent : args.present = none) {challenge : TokenChallenge}
    (hnames : challenge = .new args.issuerName args.originInfo) {lines : List String} :
    (clientRun C p args coins).answered env = .ok () ∧
        printed ((clientRun C p args coins).transcript env) = lines ↔
      ∃ pk auth response tokens, (fetchCheckedKey C p args).answered env = .ok pk ∧
        (requestAuthorization args (requestFor C coins pk challenge) coins.length).answered env
          = .ok auth ∧
        (requestSignatures ⟨requestFor C coins pk challenge, auth.authorizationB64⟩).answered env
          = .ok response ∧
        (clientBeginRequest C pk challenge coins).2.finalize C pk response = .ok tokens ∧
        tokens.map authorization = lines := by
  have hchallenge : args.challenge = Talk.lift (.ok challenge) := by
    rw [RunArgs.challenge, hpresent, hnames]
    rfl
  have hpresentFirst : ∀ tokens, presentFirst args.present tokens = Talk.lift (.ok ()) := by
    intro tokens
    rw [hpresent]
    rfl
  unfold clientRun
  rw [bind_prints fetchCheckedKey_avoids]
  simp only [hchallenge, Talk.lift_ok_bind, hpresentFirst,
    bind_prints (requestAuthorization_avoids _ _), bind_prints (requestSignatures_avoids _),
    bind_prints (Talk.Avoids.lift _), printTokens_last, requestFor]
  constructor
  · rintro ⟨pk, hpk, auth, hauth, response, hresponse, tokens, htokens, hlines⟩
    exact ⟨pk, auth, response, tokens, hpk, hauth, hresponse, Outcome.mapErr_eq_ok.mp htokens,
      hlines⟩
  · rintro ⟨pk, auth, response, tokens, hpk, hauth, hresponse, htokens, hlines⟩
    exact ⟨pk, hpk, auth, hauth, response, hresponse, tokens, Outcome.mapErr_eq_ok.mpr htokens,
      hlines⟩

/-! ## The SDK -/

/-- One pair of random values makes one token. -/
theorem finalize_singleton {pk : IssuerPublicKey} {challenge : TokenChallenge}
    {c : Bytes 32 × Bytes 32} {response : SignResponse} {tokens : List SpendToken}
    (h : (clientBeginRequest C pk challenge [c]).2.finalize C pk response = .ok tokens) :
    tokens.length = 1 := by
  simp only [PendingTokens.finalize, clientFinalize, Outcome.mapErr_eq_ok, Outcome.bind_eq_ok,
    Outcome.require_eq_ok, Outcome.pure_eq_ok, Outcome.ok.injEq] at h
  obtain ⟨_, _, _, hcount, rfl⟩ := h
  rw [List.length_zipWith, hcount, Nat.min_self]
  rfl

/-! ## The same answers -/

/-- The two clients are answered alike: by the services, and by what collects the evidence. -/
structure SameAnswers (services : MintServices)
    (collectBundleJson : String → Except MintFailure String) (input : EvidenceInput)
    (env : (q : ClientQuestion) → q.Answer) : Prop where
  keys : env .keys = services.keys
  kt : env .kt = services.kt.map KtBody.parsed
  evidence : ∀ binding eat, (collectEvidence input binding).answered env = .ok eat ↔
    ∃ bundle, collectBundleJson (String.ofList (Hex.encode binding.val)) = .ok bundle ∧
      utf8 bundle = eat
  authorize : ∀ body, env (.authorize body) = services.authorize body
  sign : ∀ body response, env (.sign body) = .ok (.body response) ↔
    services.sign body = .ok response

theorem sameAnswers_answers (services : MintServices) (bundle : String) {path : String}
    (hpath : path ≠ "-") :
    SameAnswers services (fun _ => .ok bundle) (.file path) (services.answers bundle) where
  keys := rfl
  kt := rfl
  evidence binding eat := by
    simp [collectEvidence, readEvidenceFile, hpath, Talk.answered, MintServices.answers, Talk.lift]
  authorize _ := rfl
  sign body response := by
    cases h : services.sign body <;> simp [MintServices.answers, h, Except.map]

variable {str : PythonStr} {config : EatPassBaseConfig} {services : MintServices}
  {collectBundleJson : String → Except MintFailure String} {c : Bytes 32 × Bytes 32}

theorem newClient_eq_ok {json : Except String IssuerPublicKey} {issuerName originInfo : String}
    {client : EatPassClient C} :
    EatPassClient.new C json issuerName originInfo = .ok client ↔
      ∃ pk, json = .ok pk ∧ client = ⟨pk, .new issuerName originInfo, none⟩ := by
  cases json with
  | error e => simp [EatPassClient.new]
  | ok pk => simp [EatPassClient.new, eq_comm]

/-- The headers of a batch are those of the tokens that the issuer's answer makes. -/
theorem begin_finalize {client : EatPassClient C} {json : Except String SignResponse}
    {headers : List String} :
    ((client.begin C coins).1.finalize C json).2 = .ok headers ↔
      ∃ response tokens, json = .ok response ∧
        (clientBeginRequest C client.pk client.challenge coins).2.finalize C client.pk response
          = .ok tokens ∧ tokens.map authorization = headers := by
  cases json with
  | error e => simp [EatPassClient.begin, EatPassClient.finalize]
  | ok response =>
    simp [EatPassClient.begin, EatPassClient.finalize, Outcome.bind_eq_ok, Outcome.mapErr_eq_ok]

/-- What the SDK returns, once its own check of the pin has passed. -/
theorem mintAuthorizationHeader_iff {challenge : TokenChallenge}
    (hnames : challenge = .new config.issuerName config.originInfo)
    (hpin : checkKtPin str config.ktLogPubHex services.kt = .ok ()) {header : String} :
    (∃ result, mintAuthorizationHeader C str config services collectBundleJson c = .ok result ∧
        result.authorizationHeader = header) ↔
      ∃ pk bundle auth response tokens, services.keys = .ok (.ok pk) ∧
        collectBundleJson (String.ofList
          (Hex.encode (requestFor C [c] pk challenge).body.binding.val)) = .ok bundle ∧
        services.authorize (authorizeBody (utf8 bundle) (requestFor C [c] pk challenge) 1)
          = .ok (.ok auth) ∧
        services.sign ⟨requestFor C [c] pk challenge, auth.authorizationB64⟩ = .ok (.ok response) ∧
        (clientBeginRequest C pk challenge [c]).2.finalize C pk response = .ok tokens ∧
        tokens.map authorization = [header] := by
  subst hnames
  simp only [mintAuthorizationHeader, mintClient, hpin, Outcome.ok_bind, Outcome.bind_eq_ok,
    Outcome.ofExcept_eq_ok, Outcome.mapErr_eq_ok, newClient_eq_ok]
  constructor
  · rintro ⟨result, ⟨_, ⟨_, hkeys, pk, rfl, rfl⟩, bundle, hbundle, _, hauth, auth, rfl, _, hsign,
      headers, hheaders, hresult⟩, rfl⟩
    obtain ⟨response, tokens, rfl, htokens, rfl⟩ := begin_finalize.mp hheaders
    refine ⟨pk, bundle, auth, response, tokens, hkeys, hbundle, hauth, hsign, htokens, ?_⟩
    obtain ⟨token, rfl⟩ := List.length_eq_one_iff.mp (finalize_singleton htokens)
    cases hresult
    rfl
  · rintro ⟨pk, bundle, auth, response, tokens, hkeys, hbundle, hauth, hsign, htokens, hheader⟩
    exact ⟨⟨header, _⟩, ⟨_, ⟨_, hkeys, pk, rfl, rfl⟩, bundle, hbundle, _, hauth, auth, rfl, _,
      hsign, [header], begin_finalize.mpr ⟨response, tokens, rfl, htokens, hheader⟩, rfl⟩, rfl⟩

/--
**The client prints what the SDK returns, if the log is good.** Against the same answers, with the
same names and one token to mint, and where the SDK does not stop at its own check of the pin: the
client ends well with one line, the header, exactly if its checks of the transparency log pass and
the SDK returns this header.
-/
theorem desktop_mint_agrees (hsame : SameAnswers services collectBundleJson args.evidence env)
    (hpresent : args.present = none) (hissuer : args.issuerName = config.issuerName)
    (horigin : args.originInfo = config.originInfo)
    (hpin : checkKtPin str config.ktLogPubHex services.kt = .ok ()) (header : String) :
    (clientRun C p args [c]).answered env = .ok () ∧
        printed ((clientRun C p args [c]).transcript env) = [header] ↔
      (∃ pk kt result, services.keys = .ok (.ok pk) ∧
        services.kt.map KtBody.parsed = .ok (.ok kt) ∧
        ktChecks C p args.ktLogPub args.ktKnownHead pk kt = .ok result) ∧
      ∃ result, mintAuthorizationHeader C str config services collectBundleJson c = .ok result ∧
        result.authorizationHeader = header := by
  have hnames : TokenChallenge.new config.issuerName config.originInfo
      = .new args.issuerName args.originInfo := by rw [hissuer, horigin]
  rw [clientRun_answered hpresent hnames, mintAuthorizationHeader_iff rfl hpin]
  simp only [fetchCheckedKey_answered, requestAuthorization_answered, requestSignatures_answered,
    hsame.keys, hsame.kt, hsame.authorize, hsame.sign, hsame.evidence]
  constructor
  · rintro ⟨pk, auth, response, tokens, ⟨hkeys, kt, result, hkt, hchecks⟩,
      ⟨_, ⟨bundle, hbundle, rfl⟩, hauth⟩, hsign, htokens, hheader⟩
    exact ⟨⟨pk, kt, result, hkeys, hkt, hchecks⟩,
      pk, bundle, auth, response, tokens, hkeys, hbundle, hauth, hsign, htokens, hheader⟩
  · rintro ⟨⟨pk, kt, result, hkeys, hkt, hchecks⟩, pk', bundle, auth, response, tokens, hkeys',
      hbundle, hauth, hsign, htokens, hheader⟩
    obtain rfl : pk = pk' := Except.ok.inj (Except.ok.inj (hkeys.symm.trans hkeys'))
    exact ⟨pk, auth, response, tokens, ⟨hkeys, kt, result, hkt, hchecks⟩,
      ⟨_, ⟨bundle, hbundle, rfl⟩, hauth⟩, hsign, htokens, hheader⟩

/-- The client prints the header that the SDK mints, for the key of the one-key log. -/
theorem desktop_mint_agrees_oneKeyLog :
    ∃ header,
      (clientRun Crypto.sample .release oneKeyArgs [(sampleSigningKey, sampleSigningKey)]).answered
          (oneKeyServices.answers "{}") = .ok () ∧
        printed ((clientRun Crypto.sample .release oneKeyArgs
          [(sampleSigningKey, sampleSigningKey)]).transcript (oneKeyServices.answers "{}"))
            = [header] := by
  let issuer := Issuer.generate Crypto.sample [1] 1
  have hclient : mintClient Crypto.sample asciiStr pinnedConfig oneKeyServices.keys
      oneKeyServices.kt
        = .ok ⟨issuer.public, .new pinnedConfig.issuerName pinnedConfig.originInfo, none⟩ :=
    (mintClient_eq_ok rfl (by decide +kernel)).mpr
      ⟨issuer.public, _, samplePin, rfl, rfl, rfl, rfl, rfl⟩
  obtain ⟨minted, hminted, -⟩ := mintAuthorizationHeader_eq_ok hclient
    (show _ = issuer.public from rfl) (fun _ => rfl) (fun _ => rfl) (fun _ => rfl)
    (sampleSigningKey, sampleSigningKey)
  obtain ⟨result, hchecks⟩ := oneKeyLog_checks
  have hpin : checkKtPin asciiStr pinnedConfig.ktLogPubHex oneKeyServices.kt = .ok () := by
    simp [checkKtPin, pinnedConfig, oneKeyServices, pinnedBody, Outcome.ofExcept, Outcome.require]
  have hsame : SameAnswers oneKeyServices (fun _ => .ok "{}") oneKeyArgs.evidence
      (oneKeyServices.answers "{}") :=
    sameAnswers_answers oneKeyServices "{}" (by decide)
  refine ⟨minted.authorizationHeader, (desktop_mint_agrees hsame rfl rfl rfl hpin
    minted.authorizationHeader).mpr ⟨⟨_, _, result, rfl, rfl, hchecks⟩, minted, hminted, rfl⟩⟩

end EatPass
