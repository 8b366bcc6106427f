import EatPass.Cli.ClientRun
import EatPass.Infra.Trace
import EatPass.Properties.KtPin

/-!
# What a client run says

Whatever the services, the resource and the collector answer, and wherever the run is cut off:

* `client_run_explained` — the contacts are made in one order, each at most once, and everything
  that is said after the key follows from what was answered before
-/

namespace EatPass

open Infra

/-! ## Contacts -/

/-- The requests over the network. -/
inductive Contact where
  | keys
  | kt
  | resource
  | authorize
  | sign
  | present
deriving DecidableEq

def ClientQuestion.contact : ClientQuestion → Option Contact
  | keys => some .keys
  | kt => some .kt
  | resource _ => some .resource
  | authorize _ => some .authorize
  | sign _ => some .sign
  | present _ _ => some .present
  | ktHead _ | stdin | readFile _ | tempfilePath _ _ | spawn _ _ | removeFile _ | print _ => none

/-- The requests that were sent, in their order. -/
def contacts (l : ClientLog) : List Contact := l.filterMap fun x => x.1.contact

/-- The requests up to the evidence. -/
def RunArgs.routeStart (args : RunArgs) : List Contact :=
  [.keys, .kt] ++ if args.present.isSome then [.resource] else []

/-- The requests of a run that ends well. -/
def RunArgs.route (args : RunArgs) : List Contact :=
  args.routeStart ++ ([.authorize, .sign] ++ if args.present.isSome then [.present] else [])

/-! ## Explanations -/

section

variable (C : Crypto) (p : Profile) (args : RunArgs) (coins : List (Bytes 32 × Bytes 32))

/-- The run has read the key and found it in the log of the pinned operator. -/
def KeyChecked (l : ClientLog) (pk : IssuerPublicKey) : Prop :=
  ∃ kt result, ⟨.keys, .ok (.ok pk)⟩ ∈ l ∧ ⟨.kt, .ok (.ok kt)⟩ ∈ l ∧
    ktChecks C p args.ktLogPub args.ktKnownHead pk kt = .ok result

/-- The challenge is the one of the resource, if there is one to present to. -/
def ChallengeKnown (l : ClientLog) (challenge : TokenChallenge) : Prop :=
  match args.present with
  | none => challenge = .new args.issuerName args.originInfo
  | some url => ∃ text header, ⟨.resource url, .ok ⟨⟨401, text⟩, some header⟩⟩ ∈ l ∧
      parseWwwAuthenticate header = .ok challenge

/-- The run has a key it has checked and a challenge. -/
structure Prepared (l : ClientLog) (pk : IssuerPublicKey) (challenge : TokenChallenge) : Prop where
  key : KeyChecked C p args l pk
  challenge : ChallengeKnown args l challenge

/-- The request for the key and the challenge. -/
def requestFor (pk : IssuerPublicKey) (challenge : TokenChallenge) : SignRequest :=
  (clientBeginRequest C pk challenge coins).1

/-- A command is told the binding of the request, as an argument or in its environment. -/
def TellsBinding (argv : List String) (env : List (String × String)) (req : SignRequest) : Prop :=
  String.ofList (Hex.encode req.body.binding.val) ∈ argv ++ env.map Prod.snd

/-- The evidence was read, from the file that was given or the one that a command was to write. -/
def Collected (l : ClientLog) (req : SignRequest) (eat : List UInt8) : Prop :=
  (args.evidence = .file "-" ∧ ⟨.stdin, .ok eat⟩ ∈ l) ∨
  ∃ path, ⟨.readFile path, .ok eat⟩ ∈ l ∧ (args.evidence = .file path ∨
    ∃ argv env status, ⟨.spawn argv env, .ok status⟩ ∈ l ∧ status.success = true ∧ path ∈ argv ∧
      TellsBinding argv env req)

/-- The issuer has answered the request, and the tokens are made of its answer. -/
def Minted (l : ClientLog) (tokens : List SpendToken) : Prop :=
  ∃ pk challenge auth response, Prepared C p args l pk challenge ∧
    ⟨.sign ⟨requestFor C coins pk challenge, auth⟩, .ok (.body (.ok response))⟩ ∈ l ∧
    (clientBeginRequest C pk challenge coins).2.finalize C pk response = .ok tokens

/-- Why a run asks a question, after what was said before. -/
def Explained (l : ClientLog) : ClientQuestion → Prop
  | .keys | .kt => True
  | .ktHead line => ∃ pk kt seq, ⟨.keys, .ok (.ok pk)⟩ ∈ l ∧ ⟨.kt, .ok (.ok kt)⟩ ∈ l ∧
      ktChecks C p args.ktLogPub args.ktKnownHead pk kt = .ok (seq, line)
  | .resource url => args.present = some url ∧ ∃ pk, KeyChecked C p args l pk
  | .stdin | .readFile _ | .tempfilePath _ _ | .removeFile _ =>
      ∃ pk challenge, Prepared C p args l pk challenge
  | .spawn argv env => ∃ pk challenge, Prepared C p args l pk challenge ∧
      TellsBinding argv env (requestFor C coins pk challenge)
  | .authorize body => ∃ pk challenge eat, Prepared C p args l pk challenge ∧
      Collected args l (requestFor C coins pk challenge) eat ∧
      body = authorizeBody eat (requestFor C coins pk challenge) coins.length
  | .sign body => ∃ pk challenge eat auth, Prepared C p args l pk challenge ∧
      ⟨.authorize (authorizeBody eat (requestFor C coins pk challenge) coins.length),
        .ok (.ok auth)⟩ ∈ l ∧
      body = ⟨requestFor C coins pk challenge, auth.authorizationB64⟩
  | .print line => (∃ tokens, Minted C p args coins l tokens ∧ line ∈ tokens.map authorization) ∨
      ∃ url header status, ⟨.present url header, .ok (status, line)⟩ ∈ l
  | .present url header => args.present = some url ∧ ∃ tokens, Minted C p args coins l tokens ∧
      tokens.head?.map authorization = some header ∧
      ∀ token ∈ tokens, ⟨.print (authorization token), ()⟩ ∈ l

/-- What holds of everything a run has said. -/
structure RunInv (l : ClientLog) : Prop where
  explained : ∀ before x after, l = before ++ x :: after → Explained C p args coins before x.1
  route : contacts l <+: args.route

end

section

variable {C : Crypto} {p : Profile} {args : RunArgs} {coins : List (Bytes 32 × Bytes 32)}
  {l l' : ClientLog} {pk : IssuerPublicKey} {challenge : TokenChallenge}

theorem contacts_snoc (l : ClientLog) (x : (q : ClientQuestion) × q.Answer) :
    contacts (l ++ [x]) = contacts l ++ x.1.contact.toList := by
  rw [contacts, List.filterMap_append, List.filterMap_cons]
  cases x.1.contact <;> rfl

theorem KeyChecked.mono (h : KeyChecked C p args l pk) (hl : l <+: l') :
    KeyChecked C p args l' pk := by
  obtain ⟨kt, result, hkeys, hkt, hchecks⟩ := h
  exact ⟨kt, result, hl.subset hkeys, hl.subset hkt, hchecks⟩

theorem Prepared.mono (h : Prepared C p args l pk challenge) (hl : l <+: l') :
    Prepared C p args l' pk challenge := by
  refine ⟨h.key.mono hl, ?_⟩
  have hchallenge := h.challenge
  unfold ChallengeKnown at hchallenge ⊢
  split at hchallenge
  · exact hchallenge
  · obtain ⟨text, header, hheader, hparse⟩ := hchallenge
    exact ⟨text, header, hl.subset hheader, hparse⟩

theorem Minted.mono {tokens : List SpendToken} (h : Minted C p args coins l tokens)
    (hl : l <+: l') : Minted C p args coins l' tokens := by
  obtain ⟨pk, challenge, auth, response, hprep, hsign, hfinal⟩ := h
  exact ⟨pk, challenge, auth, response, hprep.mono hl, hl.subset hsign, hfinal⟩

/-- A moment of a run: these requests were sent, and everything is explained. -/
structure Moment (C : Crypto) (p : Profile) (args : RunArgs) (coins : List (Bytes 32 × Bytes 32))
    (sent : List Contact) (l : ClientLog) : Prop where
  inv : RunInv C p args coins l
  sent : contacts l = sent

/-- One more request. -/
theorem Moment.contact {sent : List Contact} (h : Moment C p args coins sent l)
    {q : ClientQuestion} (a : q.Answer) {c : Contact} (hq : Explained C p args coins l q)
    (hc : q.contact = some c) (hroute : sent ++ [c] <+: args.route) :
    Moment C p args coins (sent ++ [c]) (l ++ [⟨q, a⟩]) := by
  have hsent : contacts (l ++ [⟨q, a⟩]) = sent ++ [c] := by
    rw [contacts_snoc, h.sent, hc, Option.toList_some]
  exact ⟨⟨forall_split_snoc.mpr ⟨h.inv.explained, hq⟩, hsent ▸ hroute⟩, hsent⟩

/-- One more question that is no request. -/
theorem Moment.aside {sent : List Contact} (h : Moment C p args coins sent l)
    {q : ClientQuestion} (a : q.Answer) (hq : Explained C p args coins l q)
    (hc : q.contact = none) : Moment C p args coins sent (l ++ [⟨q, a⟩]) := by
  have hsent : contacts (l ++ [⟨q, a⟩]) = contacts l := by
    rw [contacts_snoc, hc, Option.toList_none, List.append_nil]
  exact ⟨⟨forall_split_snoc.mpr ⟨h.inv.explained, hq⟩, hsent ▸ h.inv.route⟩, hsent.trans h.sent⟩

theorem moment_nil : Moment C p args coins [] [] :=
  ⟨⟨fun _ _ _ h => absurd h (by simp), List.nil_prefix⟩, rfl⟩

/-- What a part of the run keeps. -/
abbrev Keeps (C : Crypto) (p : Profile) (args : RunArgs) (coins : List (Bytes 32 × Bytes 32))
    {α : Type} (R : ClientLog → α → Prop) (before : ClientLog) (t : ClientTalk α) : Prop :=
  Talk.Holds (RunInv C p args coins) R before t

/-! ## The parts of a run -/

/-- The key that was fetched is in the log of the pinned operator. -/
theorem fetchCheckedKey_keeps : Keeps C p args coins
    (fun l pk => Moment C p args coins [.keys, .kt] l ∧ KeyChecked C p args l pk) []
    (fetchCheckedKey C p args) := by
  unfold fetchCheckedKey
  have h₀ : Moment C p args coins [] [] := moment_nil
  refine .question_bind h₀.inv fun keys => ?_
  have h₁ := h₀.contact (q := .keys) keys trivial rfl ⟨_, rfl⟩
  refine .lift_bind h₁.inv fun body hbody => .lift_bind h₁.inv fun pk hpk => ?_
  refine .question_bind h₁.inv fun kt => ?_
  have h₂ := h₁.contact (q := .kt) kt trivial rfl ⟨_, rfl⟩
  refine .lift_bind h₂.inv fun body' hbody' => .lift_bind h₂.inv fun kt' hkt' => ?_
  refine .lift_bind h₂.inv fun result hchecks => ?_
  obtain rfl := Outcome.ofExcept_eq_ok.mp hbody
  obtain rfl := Outcome.ofExcept_eq_ok.mp hpk
  obtain rfl := Outcome.ofExcept_eq_ok.mp hbody'
  obtain rfl := Outcome.ofExcept_eq_ok.mp hkt'
  refine .question_bind h₂.inv fun u => ?_
  have h₃ := h₂.aside (q := .ktHead result.2) u ⟨pk, kt', result.1, by simp, by simp, hchecks⟩ rfl
  exact .pure h₃.inv ⟨h₃, kt', result, by simp, by simp, hchecks⟩

/-- The challenge of the resource, if the run is to present a token. -/
theorem challenge_keeps {before : ClientLog} (h : Moment C p args coins [.keys, .kt] before)
    (hkey : KeyChecked C p args before pk) : Keeps C p args coins
    (fun l challenge => Moment C p args coins args.routeStart l ∧
      Prepared C p args l pk challenge) before args.challenge := by
  unfold RunArgs.challenge RunArgs.routeStart
  cases hpresent : args.present with
  | none =>
    refine .pure h.inv ⟨h, hkey, ?_⟩
    rw [ChallengeKnown, hpresent]
  | some url =>
    unfold fetchOriginChallenge
    refine .question_bind h.inv fun r => ?_
    have h₁ := h.contact (q := .resource url) r ⟨hpresent, pk, hkey⟩ rfl
      (by simp [RunArgs.route, RunArgs.routeStart, hpresent])
    refine .lift_bind h₁.inv fun answer hanswer => .lift_bind h₁.inv fun _ hstatus =>
      .lift_bind h₁.inv fun header hheader => .lift h₁.inv fun challenge hparse => ?_
    obtain rfl := Outcome.ofExcept_eq_ok.mp hanswer
    obtain ⟨⟨code, text⟩, wwwAuthenticate⟩ := answer
    obtain rfl : code = 401 := Outcome.require_eq_ok.mp hstatus
    obtain rfl : wwwAuthenticate = some header := Outcome.ofOption_eq_ok.mp hheader
    refine ⟨h₁, hkey.mono (List.prefix_append _ _), ?_⟩
    rw [ChallengeKnown, hpresent]
    exact ⟨text, header, by simp, Outcome.mapErr_eq_ok.mp hparse⟩

/-- A moment of a run that has a key and a challenge. -/
structure Ready (C : Crypto) (p : Profile) (args : RunArgs) (coins : List (Bytes 32 × Bytes 32))
    (pk : IssuerPublicKey) (challenge : TokenChallenge) (sent : List Contact) (l : ClientLog) :
    Prop extends Moment C p args coins sent l where
  prepared : Prepared C p args l pk challenge

theorem Ready.contact {sent : List Contact} (h : Ready C p args coins pk challenge sent l)
    {q : ClientQuestion} (a : q.Answer) {c : Contact} (hq : Explained C p args coins l q)
    (hc : q.contact = some c) (hroute : sent ++ [c] <+: args.route) :
    Ready C p args coins pk challenge (sent ++ [c]) (l ++ [⟨q, a⟩]) :=
  ⟨h.toMoment.contact a hq hc hroute, h.prepared.mono (List.prefix_append _ _)⟩

theorem Ready.aside {sent : List Contact} (h : Ready C p args coins pk challenge sent l)
    {q : ClientQuestion} (a : q.Answer) (hq : Explained C p args coins l q)
    (hc : q.contact = none) : Ready C p args coins pk challenge sent (l ++ [⟨q, a⟩]) :=
  ⟨h.toMoment.aside a hq hc, h.prepared.mono (List.prefix_append _ _)⟩

/-- Collecting evidence sends no request to a service. -/
theorem collectEvidence_keeps {before : ClientLog} {sent : List Contact}
    (h : Ready C p args coins pk challenge sent before) :
    Keeps C p args coins
      (fun l eat => Ready C p args coins pk challenge sent l ∧
        Collected args l (requestFor C coins pk challenge) eat) before
      (collectEvidence args.evidence (requestFor C coins pk challenge).body.binding) := by
  unfold collectEvidence
  cases hinput : args.evidence with
  | file path =>
    simp only [readEvidenceFile]
    split
    · next hstdin =>
      refine .question_bind h.inv fun bytes => ?_
      have h₁ := h.aside (q := .stdin) bytes ⟨pk, challenge, h.prepared⟩ rfl
      refine .lift h₁.inv fun eat heat => ?_
      obtain rfl := Outcome.ofExcept_eq_ok.mp heat
      exact ⟨h₁, .inl ⟨hstdin ▸ hinput, by simp⟩⟩
    · refine .question_bind h.inv fun bytes => ?_
      have h₁ := h.aside (q := .readFile path) bytes ⟨pk, challenge, h.prepared⟩ rfl
      refine .lift h₁.inv fun eat heat => ?_
      obtain rfl := Outcome.ofExcept_eq_ok.mp heat
      exact ⟨h₁, .inr ⟨path, by simp, .inl hinput⟩⟩
  | azureCommand cmd =>
    refine .question_bind h.inv fun out => ?_
    have h₁ := h.aside (q := .tempfilePath _ _) out ⟨pk, challenge, h.prepared⟩ rfl
    refine .lift_bind h₁.inv fun path _ => .lift_bind h₁.inv fun _ _ =>
      .question_bind h₁.inv fun answer => ?_
    have h₂ := h₁.aside (q := .spawn _ _) answer
      ⟨pk, challenge, h₁.prepared, by simp [TellsBinding]⟩ rfl
    refine .lift_bind h₂.inv fun status hstatus => .lift_bind h₂.inv fun _ hsuccess =>
      .question_bind h₂.inv fun bytes => ?_
    obtain rfl := Outcome.ofExcept_eq_ok.mp hstatus
    replace hsuccess := Outcome.require_eq_ok.mp hsuccess
    have h₃ := h₂.aside (q := .readFile path) bytes ⟨pk, challenge, h₂.prepared⟩ rfl
    refine .lift_bind h₃.inv fun eat heat => .question_bind h₃.inv fun u => ?_
    obtain rfl := Outcome.ofExcept_eq_ok.mp heat
    have h₄ := h₃.aside (q := .removeFile path) u ⟨pk, challenge, h₃.prepared⟩ rfl
    refine .pure h₄.inv ⟨h₄, .inr ⟨path, by simp, .inr
      ⟨(splitWhitespace cmd.toList).map String.ofList ++ ["--value-x", String.ofList
        (Hex.encode (requestFor C coins pk challenge).body.binding.val), "-o", path], [], status,
      ?_⟩⟩⟩
    simp [TellsBinding, hsuccess]
  | desktopTpm script buildDigest =>
    refine .question_bind h.inv fun out => ?_
    have h₁ := h.aside (q := .tempfilePath _ _) out ⟨pk, challenge, h.prepared⟩ rfl
    refine .lift_bind h₁.inv fun path _ => .question_bind h₁.inv fun answer => ?_
    have h₂ := h₁.aside (q := .spawn _ _) answer
      ⟨pk, challenge, h₁.prepared, by simp [TellsBinding]⟩ rfl
    refine .lift_bind h₂.inv fun status hstatus => .lift_bind h₂.inv fun _ hsuccess =>
      .question_bind h₂.inv fun bytes => ?_
    obtain rfl := Outcome.ofExcept_eq_ok.mp hstatus
    replace hsuccess := Outcome.require_eq_ok.mp hsuccess
    have h₃ := h₂.aside (q := .readFile path) bytes ⟨pk, challenge, h₂.prepared⟩ rfl
    refine .lift h₃.inv fun eat heat => ?_
    obtain rfl := Outcome.ofExcept_eq_ok.mp heat
    refine ⟨h₃, .inr ⟨path, by simp, .inr ⟨["bash", script, "-o", path], [("BINDING", String.ofList
      (Hex.encode (requestFor C coins pk challenge).body.binding.val)),
      ("BUILD_DIGEST", buildDigest)], status, ?_⟩⟩⟩
    simp [TellsBinding, hsuccess]

/-- The attester is asked for an authorization for the request. -/
theorem requestAuthorization_keeps {before : ClientLog}
    (h : Ready C p args coins pk challenge args.routeStart before) :
    Keeps C p args coins
      (fun l auth => Ready C p args coins pk challenge (args.routeStart ++ [.authorize]) l ∧
        ∃ eat, ⟨.authorize (authorizeBody eat (requestFor C coins pk challenge) coins.length),
          .ok (.ok auth)⟩ ∈ l) before
      (requestAuthorization args (requestFor C coins pk challenge) coins.length) := by
  unfold requestAuthorization
  refine .bind (collectEvidence_keeps h) fun l eat ⟨hl, hcollected⟩ => ?_
  refine .question_bind hl.inv fun auth => ?_
  have h₁ := hl.contact (q := .authorize _) auth
    ⟨pk, challenge, eat, hl.prepared, hcollected, rfl⟩ rfl
    ((List.prefix_append_right_inj _).mpr ⟨_, rfl⟩)
  refine .lift_bind h₁.inv fun body hbody => .lift h₁.inv fun response hresponse => ?_
  obtain rfl := Outcome.ofExcept_eq_ok.mp hbody
  obtain rfl := Outcome.ofExcept_eq_ok.mp hresponse
  exact ⟨h₁, eat, by simp⟩

/-- The issuer is asked to sign the request. -/
theorem requestSignatures_keeps {before : ClientLog} {auth : AuthorizeResponse}
    (h : Ready C p args coins pk challenge (args.routeStart ++ [.authorize]) before)
    {eat : List UInt8} (hauth : ⟨.authorize (authorizeBody eat (requestFor C coins pk challenge)
      coins.length), .ok (.ok auth)⟩ ∈ before) :
    Keeps C p args coins
      (fun l response =>
        Ready C p args coins pk challenge (args.routeStart ++ [.authorize] ++ [.sign]) l ∧
        ⟨.sign ⟨requestFor C coins pk challenge, auth.authorizationB64⟩,
          .ok (.body (.ok response))⟩ ∈ l) before
      (requestSignatures ⟨requestFor C coins pk challenge, auth.authorizationB64⟩) := by
  unfold requestSignatures
  refine .question_bind h.inv fun r => ?_
  have h₁ := h.contact (q := .sign _) r
    ⟨pk, challenge, eat, auth, h.prepared, hauth, rfl⟩ rfl
    (by rw [RunArgs.route, List.append_assoc]; exact (List.prefix_append_right_inj _).mpr ⟨_, rfl⟩)
  refine .lift_bind h₁.inv fun answer hanswer => ?_
  obtain rfl := Outcome.ofExcept_eq_ok.mp hanswer
  cases answer with
  | rejected status text => exact .lift h₁.inv fun _ hok => by cases hok
  | body response =>
    refine .lift h₁.inv fun response' hresponse => ?_
    obtain rfl := Outcome.ofExcept_eq_ok.mp hresponse
    exact ⟨h₁, by simp⟩

/-- The tokens are printed, one after the other. -/
theorem printTokens_keeps {tokens : List SpendToken} {sent : List Contact} :
    ∀ {rest : List SpendToken} {before : ClientLog}, rest ⊆ tokens →
      Ready C p args coins pk challenge sent before → Minted C p args coins before tokens →
      Keeps C p args coins
        (fun l _ => Ready C p args coins pk challenge sent l ∧ Minted C p args coins l tokens ∧
          before <+: l ∧ ∀ token ∈ rest, ⟨.print (authorization token), ()⟩ ∈ l) before
        (printTokens rest)
  | [], before, _, h, hminted => .pure h.inv ⟨h, hminted, List.prefix_rfl, by simp⟩
  | token :: rest, before, hsub, h, hminted => by
    rw [printTokens]
    obtain ⟨htoken, hrest⟩ := List.cons_subset.mp hsub
    refine .question_bind h.inv fun u => ?_
    have h₁ := h.aside (q := .print _) u (.inl ⟨tokens, hminted, List.mem_map_of_mem htoken⟩) rfl
    refine (printTokens_keeps hrest h₁ (hminted.mono (List.prefix_append _ _))).mono ?_
    rintro l _ ⟨hl, hmintedl, hprefix, hprinted⟩
    refine ⟨hl, hmintedl, (List.prefix_append _ _).trans hprefix, fun t ht => ?_⟩
    rcases List.mem_cons.mp ht with rfl | ht
    · exact hprefix.subset (by simp)
    · exact hprinted t ht

/-- The first token is presented. -/
theorem presentFirst_keeps {before : ClientLog} {tokens : List SpendToken}
    (h : Ready C p args coins pk challenge (args.routeStart ++ [.authorize] ++ [.sign]) before)
    (hminted : Minted C p args coins before tokens)
    (hprinted : ∀ token ∈ tokens, ⟨.print (authorization token), ()⟩ ∈ before) :
    Keeps C p args coins (fun l _ => contacts l = args.route) before
      (presentFirst args.present tokens) := by
  have hroute : args.route = args.routeStart ++ [.authorize] ++ [.sign]
      ++ if args.present.isSome then [.present] else [] := by
    simp [RunArgs.route]
  cases hpresent : args.present with
  | none =>
    refine .pure h.inv ?_
    rw [h.sent, hroute, hpresent]
    simp
  | some url =>
    rw [hpresent] at hroute
    simp only [presentFirst]
    refine .lift_bind h.inv fun first hfirst => .question_bind h.inv fun r => ?_
    have hhead : tokens.head? = some first := Outcome.ofOption_eq_ok.mp hfirst
    have h₁ := h.contact (q := .present url (authorization first)) r
      ⟨hpresent, tokens, hminted, by rw [hhead]; rfl, hprinted⟩ rfl (by rw [hroute]; simp)
    refine .lift_bind h₁.inv fun answer hanswer => ?_
    obtain ⟨status, text⟩ := answer
    obtain rfl := Outcome.ofExcept_eq_ok.mp hanswer
    refine .ask h₁.inv fun u => ?_
    have h₂ := h₁.aside (q := .print text) u
      (.inr ⟨url, authorization first, status, by simp⟩) rfl
    refine .pure h₂.inv ?_
    rw [h₂.sent, hroute]
    rfl

theorem clientRun_keeps :
    Keeps C p args coins (fun l _ => contacts l = args.route) [] (clientRun C p args coins) := by
  unfold clientRun
  refine .bind fetchCheckedKey_keeps fun l pk ⟨hl, hkey⟩ => ?_
  refine .bind (challenge_keeps hl hkey) fun l challenge ⟨hl, hprep⟩ => ?_
  have hready : Ready C p args coins pk challenge args.routeStart l := ⟨hl, hprep⟩
  refine .bind (requestAuthorization_keeps hready) fun l auth ⟨hl, eat, hauth⟩ => ?_
  refine .bind (requestSignatures_keeps hl hauth) fun l response ⟨hl, hsign⟩ => ?_
  refine .lift_bind hl.inv fun tokens htokens => ?_
  have hminted : Minted C p args coins l tokens :=
    ⟨pk, challenge, auth.authorizationB64, response, hl.prepared, hsign,
      Outcome.mapErr_eq_ok.mp htokens⟩
  refine .bind (printTokens_keeps (List.Subset.refl tokens) hl hminted)
    fun l _ ⟨hl, hminted, _, hprinted⟩ => ?_
  exact presentFirst_keeps hl hminted hprinted

/-! ## Fixed answers -/

variable {env : (q : ClientQuestion) → q.Answer}

theorem fetchCheckedKey_answered {pk : IssuerPublicKey} :
    (fetchCheckedKey C p args).answered env = .ok pk ↔
      env .keys = .ok (.ok pk) ∧ ∃ kt result, env .kt = .ok (.ok kt) ∧
        ktChecks C p args.ktLogPub args.ktKnownHead pk kt = .ok result := by
  simp only [fetchCheckedKey, Talk.question_bind, Talk.answered, Talk.answered_bind, Talk.lift,
    Outcome.bind_eq_ok, Outcome.ofExcept_eq_ok, pure, Outcome.ok.injEq]
  constructor
  · rintro ⟨_, hkeys, pk, rfl, _, hkt, kt, rfl, result, hchecks, rfl⟩
    exact ⟨hkeys, kt, result, hkt, hchecks⟩
  · rintro ⟨hkeys, kt, result, hkt, hchecks⟩
    exact ⟨_, hkeys, pk, rfl, _, hkt, kt, rfl, result, hchecks, rfl⟩

theorem challenge_answered {url text header : String} {challenge : TokenChallenge}
    (hpresent : args.present = some url)
    (hresource : env (.resource url) = .ok ⟨⟨401, text⟩, some header⟩)
    (hparse : parseWwwAuthenticate header = .ok challenge) :
    args.challenge.answered env = .ok challenge := by
  simp only [RunArgs.challenge, hpresent, fetchOriginChallenge, Talk.question_bind, Talk.answered,
    Talk.answered_bind, Talk.lift, hresource, Outcome.bind_eq_ok, Outcome.ofExcept_eq_ok]
  exact ⟨_, rfl, (), Outcome.require_eq_ok.mpr rfl, header, Outcome.ofOption_eq_ok.mpr rfl,
    Outcome.mapErr_eq_ok.mpr hparse⟩

theorem requestAuthorization_answered {req : SignRequest} {count : Nat}
    {auth : AuthorizeResponse} :
    (requestAuthorization args req count).answered env = .ok auth ↔
      ∃ eat, (collectEvidence args.evidence req.body.binding).answered env = .ok eat ∧
        env (.authorize (authorizeBody eat req count)) = .ok (.ok auth) := by
  simp only [requestAuthorization, Talk.question_bind, Talk.answered, Talk.answered_bind, Talk.lift,
    Outcome.bind_eq_ok, Outcome.ofExcept_eq_ok]
  constructor
  · rintro ⟨eat, heat, _, hbody, rfl⟩
    exact ⟨eat, heat, hbody⟩
  · rintro ⟨eat, heat, hbody⟩
    exact ⟨eat, heat, _, hbody, rfl⟩

theorem requestSignatures_answered {body : SignBody} {response : SignResponse} :
    (requestSignatures body).answered env = .ok response ↔
      env (.sign body) = .ok (.body (.ok response)) := by
  simp only [requestSignatures, Talk.question_bind, Talk.answered, Talk.answered_bind, Talk.lift,
    Outcome.bind_eq_ok, Outcome.ofExcept_eq_ok]
  constructor
  · rintro ⟨answer, hanswer, hresponse⟩
    cases answer with
    | rejected status text => cases hresponse
    | body response' => rw [hanswer, Outcome.ofExcept_eq_ok.mp hresponse]
  · intro hanswer
    exact ⟨_, hanswer, rfl⟩

/-! ## A run that ends well -/

/-- The services as they answer a run that reads its evidence from a file. -/
def MintServices.answers (services : MintServices) (bundle : String) :
    (q : ClientQuestion) → q.Answer
  | .keys => services.keys
  | .kt => services.kt.map KtBody.parsed
  | .ktHead _ => ()
  | .resource _ => .error "unreachable"
  | .stdin => .error "closed"
  | .readFile _ => .ok (utf8 bundle)
  | .tempfilePath _ _ => .error "rng"
  | .spawn _ _ => .error "not found"
  | .removeFile _ => ()
  | .authorize body => services.authorize body
  | .sign body => (services.sign body).map SignAnswer.body
  | .print _ => ()
  | .present _ _ => .error "unreachable"

/-- An issuer whose only key is in the log, and an attester that is content. -/
def oneKeyServices : MintServices where
  keys := .ok (.ok (Issuer.generate Crypto.sample [1] 1).public)
  kt := .ok (pinnedBody oneKeyLog.records
    (logSignerSign Crypto.sample sampleSigningKey oneKeyLog))
  authorize _ := .ok (.ok ⟨""⟩)
  sign body := .ok (.ok
    (issuerSign Crypto.sample (Issuer.generate Crypto.sample [1] 1).sk body.req.body))

def oneKeyArgs : RunArgs where
  evidence := .file "bundle.json"
  issuerName := pinnedConfig.issuerName
  originInfo := pinnedConfig.originInfo
  present := none
  ktLogPub := logSignerPublic Crypto.sample sampleSigningKey
  ktKnownHead := none

theorem oneKeyLog_checks :
    ∃ result, ktChecks Crypto.sample .release oneKeyArgs.ktLogPub none
      (Issuer.generate Crypto.sample [1] 1).public
      ⟨samplePin, oneKeyLog.records, logSignerSign Crypto.sample sampleSigningKey oneKeyLog⟩
        = .ok result := by
  obtain ⟨logPub, kt, hpin, hkt, hlog⟩ := pinnedLog_oneKeyLog
  obtain rfl := Except.ok.inj hkt
  have hpub : Hex.decode (trim samplePin.toList) = some oneKeyArgs.ktLogPub.val := by
    simp [samplePin, oneKeyArgs]
  obtain rfl : oneKeyArgs.ktLogPub = logPub :=
    Subtype.ext (Option.some.inj (hpub.symm.trans hpin))
  exact ktChecks_isOk_iff.mpr ⟨by rw [KtResponse.servedPub, hpin, Option.getD_some], hlog⟩

/-- The issuer's own answer is good for the batch. -/
theorem finalize_issuerSign (issuer : Issuer) (challenge : TokenChallenge)
    (coins : List (Bytes 32 × Bytes 32)) :
    (clientBeginRequest C issuer.public challenge coins).2.finalize C issuer.public
        (issuerSign C issuer.sk (requestFor C coins issuer.public challenge).body)
      = .ok (coins.map (mintedToken C issuer challenge)) := by
  obtain ⟨response, hresponse, hfinal⟩ :=
    Outcome.bind_eq_ok.mp (finalize_blindSign C issuer challenge coins)
  simp only [Issuer.blindSign, clientBeginRequest, Issuer.public_keyVersion, Outcome.require_pos,
    Outcome.ok_bind, Outcome.pure_eq_ok, Outcome.ok.injEq] at hresponse
  subst hresponse
  exact hfinal

/-- The arguments of a run that has its evidence collected and presents its first token. -/
def presentingArgs : RunArgs where
  __ := oneKeyArgs
  evidence := .desktopTpm "collect.sh" "00"
  present := some "http://127.0.0.1/report"

/-- The answers of `oneKeyServices`, of a collector that succeeds and of a resource. -/
def presentingAnswers : (q : ClientQuestion) → q.Answer
  | .tempfilePath _ _ => .ok "/tmp/bundle.json"
  | .spawn _ _ => .ok ⟨true, "exit status: 0"⟩
  | .resource _ => .ok ⟨⟨401, "401 Unauthorized"⟩, some (wwwAuthenticate
      (TokenChallenge.new presentingArgs.issuerName presentingArgs.originInfo).toBytes
      (Issuer.generate Crypto.sample [1] 1).public)⟩
  | .present _ _ => .ok (⟨200, "200 OK"⟩, "report")
  | q => oneKeyServices.answers "{}" q

/-- A run for two tokens. -/
def presentingRun : ClientTalk Unit :=
  clientRun Crypto.sample .release presentingArgs
    [(sampleSigningKey, sampleSigningKey), (sampleSigningKey, sampleSigningKey)]

theorem presentingRun_answered : presentingRun.answered presentingAnswers = .ok () := by
  let issuer := Issuer.generate Crypto.sample [1] 1
  let challenge : TokenChallenge := .new presentingArgs.issuerName presentingArgs.originInfo
  let coins := [(sampleSigningKey, sampleSigningKey), (sampleSigningKey, sampleSigningKey)]
  obtain ⟨result, hchecks⟩ := oneKeyLog_checks
  have hkey : (fetchCheckedKey Crypto.sample .release presentingArgs).answered presentingAnswers
      = .ok issuer.public :=
    fetchCheckedKey_answered.mpr ⟨rfl, _, result, rfl, hchecks⟩
  have hfits : challenge.Fits := ⟨by decide, by decide, by decide⟩
  have hchallenge : presentingArgs.challenge.answered presentingAnswers = .ok challenge :=
    challenge_answered rfl rfl (parseWwwAuthenticate_wwwAuthenticate hfits issuer.public)
  have hauth : (requestAuthorization presentingArgs (requestFor Crypto.sample coins issuer.public
      challenge) coins.length).answered presentingAnswers = .ok ⟨""⟩ :=
    requestAuthorization_answered.mpr ⟨utf8 "{}", rfl, rfl⟩
  have hsign : (requestSignatures
      ⟨requestFor Crypto.sample coins issuer.public challenge, ""⟩).answered presentingAnswers
        = .ok (issuerSign Crypto.sample issuer.sk
          (requestFor Crypto.sample coins issuer.public challenge).body) :=
    requestSignatures_answered.mpr rfl
  have htokens := finalize_issuerSign (C := Crypto.sample) issuer challenge coins
  unfold presentingRun clientRun
  simp only [Talk.answered_bind, Outcome.bind_eq_ok]
  exact ⟨_, hkey, challenge, hchallenge, _, hauth, _, hsign, _, Outcome.mapErr_eq_ok.mpr htokens,
    (), rfl, rfl⟩

/--
**What a run of the client says.** Whatever is answered and wherever the run is cut off, the
requests are sent in one order, each at most once, and everything that is said is explained by what
was answered before: nothing goes to the resource, the collector or the attester before the key was
found in the pinned log, the attester is sent the evidence collected for the blinded request, the
issuer that request with the authorization for it, and the resource the first of the tokens, all of
which were printed before. A run that ends well has sent every request.
-/
theorem client_run_explained {l : ClientLog} {t : ClientTalk Unit}
    (h : Talk.Says (clientRun C p args coins) l t) :
    (∀ before x after, l = before ++ x :: after → Explained C p args coins before x.1) ∧
      contacts l <+: args.route ∧ (t = .done (.ok ()) → contacts l = args.route) := by
  obtain ⟨hinv, hend⟩ := clientRun_keeps l t h
  exact ⟨hinv.explained, hinv.route, hend ()⟩

end

theorem client_run_explained_oneKeyLog :
    contacts (presentingRun.transcript presentingAnswers)
        = [.keys, .kt, .resource, .authorize, .sign, .present] ∧
      ∃ argv env status, status.success = true ∧
        ⟨.spawn argv env, .ok status⟩ ∈ presentingRun.transcript presentingAnswers := by
  obtain ⟨hexplained, -, hend⟩ :=
    client_run_explained (Talk.says_transcript presentingAnswers presentingRun)
  have hcontacts := hend (congrArg Talk.done presentingRun_answered)
  refine ⟨hcontacts, ?_⟩
  -- what the attester is sent was collected
  have hauth : Contact.authorize ∈ contacts (presentingRun.transcript presentingAnswers) := by
    rw [hcontacts]
    decide
  obtain ⟨x, hx, hcontact⟩ := List.mem_filterMap.mp hauth
  obtain ⟨before, after, hsplit⟩ := List.append_of_mem hx
  have hx := hexplained before x after hsplit
  obtain ⟨q, a⟩ := x
  cases q with
  | authorize body =>
    obtain ⟨_, _, _, _, hcollected | ⟨_, _, hfile | ⟨argv, env, status, hspawn, hok, -⟩⟩, _⟩ := hx
    · cases hcollected.1
    · cases hfile
    · exact ⟨argv, env, status, hok, hsplit ▸ List.mem_append_left _ hspawn⟩
  | _ => cases hcontact

end EatPass
