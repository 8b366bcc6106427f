import EatPass.Desktop.Windows
import EatPass.Properties.FfiSessions
import EatPass.Properties.MintAgreement

/-!
# One helper for many mints

The mints of a Windows process share one stdio helper, and it may exit.

* `windows_mint_direct` — each of them is a mint with a client of its own, for the values that the
  helper drew for it
* `windows_sessions_owned` — the sessions of the helper are those of the mints that still run
-/

namespace EatPass

open Infra

variable {C : Crypto} {equalsIgnoreCase : String → String → Bool}

/-! ## Lines and answers -/

theorem clientFinalize_ne_panic (pending : PendingMint C.pomfrit) (resp : SignResponse)
    (pk : List UInt8) : clientFinalize C pending resp pk ≠ .panic :=
  Outcome.require_bind_ne_panic fun _ => Outcome.require_bind_ne_panic fun _ => by simp

theorem EatPassClient.finalize_ne_panic (client : EatPassClient C)
    (json : Except String SignResponse) : (client.finalize C json).2 ≠ .panic := by
  cases json with
  | error e => simp [finalize]
  | ok resp =>
    cases hpending : client.pending with
    | none => simp [finalize, hpending]
    | some pending =>
      simp only [finalize, hpending]
      refine Outcome.bind_ne_panic (Outcome.mapErr_ne_panic ?_) fun _ _ => by simp
      exact Outcome.mapErr_ne_panic (clientFinalize_ne_panic pending.inner resp client.pk.key)

/-- The two values a `begin` draws. -/
abbrev Coins := Bytes 32 × Bytes 32

abbrev WindowsLog :=
  Talk.Log (ServiceQuestion ⊕ FfiLine) (Sum.elim ServiceQuestion.Answer fun _ => RpcAnswer)

abbrev DirectLog :=
  Talk.Log (ServiceQuestion ⊕ Empty) (Sum.elim ServiceQuestion.Answer fun _ => Empty)

abbrev WindowsEvent (C : Crypto) :=
  Crowd.Event (helperDesk C) ServiceQuestion.Answer EatPassConfig

/-- The values that the helper has drawn for an answer: those of a `begin`. -/
def drawnFor (chance : RpcChance) : RpcAnswer → Option Coins
  | .ok (.ok (.begun _)) => some (chance.random 0)
  | _ => none

/-- The values that were drawn for a mint, whose lines were served with these chances. -/
def drawn (said : WindowsLog) (chances : List RpcChance) : Option Coins :=
  ((inside said).zip chances).findSome? fun x => drawnFor x.2 x.1.2

theorem drawn_snoc_inl (said : WindowsLog) (q : ServiceQuestion) (a : q.Answer)
    (chances : List RpcChance) : drawn (said ++ [⟨.inl q, a⟩]) chances = drawn said chances := by
  rw [drawn, inside_snoc_inl]
  rfl

theorem drawn_snoc_inr {said : WindowsLog} {chances : List RpcChance}
    (h : (inside said).length = chances.length) (line : FfiLine) (r : RpcAnswer)
    (chance : RpcChance) : drawn (said ++ [⟨.inr line, r⟩]) (chances ++ [chance])
      = (drawn said chances).or (drawnFor chance r) := by
  rw [drawn, inside_snoc_inr, List.zip_append h, List.findSome?_append]
  simp [drawn]

/-- What is left of a mint whose helper is gone: it throws. -/
inductive Broken : WindowsTalk MintResult → Prop
  | ended (e : WindowsFailure) : Broken (.done (.err e))
  | calling {line : FfiLine} {next : RpcAnswer → WindowsTalk MintResult} :
      (∀ a, Broken (next a)) → Broken (.ask (.inr line) next)

/--
`Mirrors C v t t'`: with the session `v`, the mint goes on with `t` as the direct mint does with
`t'`, which depends on the random values as long as they are not drawn.
-/
inductive Mirrors (C : Crypto) : Option (UInt64 × EatPassClient C) → WindowsTalk MintResult →
    (Coins → DirectTalk MintResult) → Prop
  | ended (x : Outcome WindowsFailure MintResult) : Mirrors C none (.done x) fun _ => .done x
  | service {v : Option (UInt64 × EatPassClient C)} {q : ServiceQuestion}
      {next : q.Answer → WindowsTalk MintResult}
      {next' : Coins → q.Answer → DirectTalk MintResult} :
      (∀ a, Mirrors C v (next a) fun c => next' c a) →
      Mirrors C v (.ask (.inl q) next) fun c => .ask (.inl q) (next' c)
  | opening {json : Except String IssuerPublicKey} {issuerName originInfo : String}
      {next : RpcAnswer → WindowsTalk MintResult}
      {t' : Coins → DirectTalk MintResult} :
      (∀ e, EatPassClient.new C json issuerName originInfo = .err e →
        Mirrors C none (next (.ok (.error e.message))) t') →
      (∀ id client, EatPassClient.new C json issuerName originInfo = .ok client →
        Mirrors C (some (id, client)) (next (.ok (.ok (.id id)))) t') →
      (∀ e, Broken (next (.error e))) →
      Mirrors C none (.ask (.inr (newLine json issuerName originInfo)) next) t'
  | beginning {id : UInt64} {client : EatPassClient C} {next : RpcAnswer → WindowsTalk MintResult}
      {t' : Coins → DirectTalk MintResult} :
      (∀ c, Mirrors C (some (id, (client.begin C [c]).1))
        (next (.ok (.ok (.begun (client.begin C [c]).2)))) fun _ => t' c) →
      (∀ e, Broken (next (.error e))) →
      Mirrors C (some (id, client)) (.ask (.inr (beginLine id 1)) next) t'
  | finishing {id : UInt64} {client : EatPassClient C} {json : Except String SignResponse}
      {next : RpcAnswer → WindowsTalk MintResult}
      {t' : Coins → DirectTalk MintResult} :
      (∀ headers, (client.finalize C json).2 = .ok headers →
        Mirrors C (some (id, (client.finalize C json).1))
          (next (.ok (.ok (.authorizationHeader (headers.headD ""))))) t') →
      (∀ e, (client.finalize C json).2 = .err e →
        Mirrors C (some (id, (client.finalize C json).1)) (next (.ok (.error e.message))) t') →
      (∀ e, Broken (next (.error e))) →
      Mirrors C (some (id, client)) (.ask (.inr (finalizeLine id json)) next) t'
  | disposing {id : UInt64} {client : EatPassClient C} {next : RpcAnswer → WindowsTalk MintResult}
      {t' : Coins → DirectTalk MintResult} :
      (∀ a, Mirrors C none (next a) t') →
      Mirrors C (some (id, client)) (.ask (.inr (dropLine id)) next) t'

/-! ## A mint mirrors a direct one -/

theorem mirrors_askService {q : ServiceQuestion} {f : q.Value → WindowsTalk MintResult}
    {f' : Coins → q.Value → DirectTalk MintResult}
    (h : ∀ a, Mirrors C none (f a) fun c => f' c a) :
    Mirrors C none (askService q >>= f) fun c => askService q >>= f' c := by
  refine @Mirrors.service C none q _ (fun c a => Talk.lift (Outcome.ofExcept id a) >>= f' c)
    fun a => ?_
  cases a with
  | error e => exact .ended _
  | ok a => exact h a

theorem mirrors_fetchKeys {config : EatPassConfig}
    {f : Except String IssuerPublicKey → WindowsTalk MintResult}
    {f' : Coins → Except String IssuerPublicKey → DirectTalk MintResult}
    (h : ∀ keysJson, Mirrors C none (f keysJson) fun c => f' c keysJson) :
    Mirrors C none (fetchKeys equalsIgnoreCase config >>= f)
      fun c => fetchKeys equalsIgnoreCase config >>= f' c := by
  simp only [fetchKeys, Talk.bind_assoc]
  refine mirrors_askService fun keysJson => ?_
  cases config.ktLogPubHex with
  | none => exact h keysJson
  | some pin =>
    simp only [Talk.bind_assoc]
    refine mirrors_askService fun served => ?_
    by_cases hpin : equalsIgnoreCase served pin = true
    · simp only [Outcome.require_pos hpin]
      exact h keysJson
    · simp only [Outcome.require_neg hpin]
      exact .ended _

/-- Inside the `try`, the session is dropped however the mint ends. -/
theorem mirrors_finally_done {sid : UInt64} {client : EatPassClient C}
    (x : Outcome WindowsFailure MintResult) :
    Mirrors C (some (sid, client)) ((Talk.done x : WindowsTalk MintResult).andFinally
      (nativeDispose sid)) fun _ => .done x :=
  .disposing fun _ => .ended x

theorem broken_finally (sid : UInt64) (e : WindowsFailure) :
    Broken ((Talk.done (.err e) : WindowsTalk MintResult).andFinally (nativeDispose sid)) :=
  .calling fun _ => .ended e

theorem mirrors_finally_askService {sid : UInt64} {client : EatPassClient C} {q : ServiceQuestion}
    {f : q.Value → WindowsTalk MintResult}
    {f' : Coins → q.Value → DirectTalk MintResult}
    (h : ∀ a, Mirrors C (some (sid, client)) ((f a).andFinally (nativeDispose sid))
      fun c => f' c a) :
    Mirrors C (some (sid, client)) ((askService q >>= f).andFinally (nativeDispose sid))
      fun c => askService q >>= f' c := by
  refine @Mirrors.service C (some (sid, client)) q _
    (fun c a => Talk.lift (Outcome.ofExcept id a) >>= f' c) fun a => ?_
  cases a with
  | error e => exact mirrors_finally_done _
  | ok a => exact h a

theorem mirrors_askForSignatures {sid : UInt64} {client : EatPassClient C} {begun : BeginResult}
    {f : Except String SignResponse → WindowsTalk MintResult}
    {f' : Except String SignResponse → DirectTalk MintResult}
    (h : ∀ signJson, Mirrors C (some (sid, client)) ((f signJson).andFinally (nativeDispose sid))
      fun _ => f' signJson) :
    Mirrors C (some (sid, client)) ((askForSignatures begun >>= f).andFinally (nativeDispose sid))
      fun _ => askForSignatures begun >>= f' := by
  simp only [askForSignatures, Talk.bind_assoc]
  refine mirrors_finally_askService fun bundleJson => ?_
  refine mirrors_finally_askService fun authorizationB64 => ?_
  exact mirrors_finally_askService h

/-- The rest of a mint in the `try`, once a batch is begun. -/
def mintBegun (sid : UInt64) (begun : BeginResult) : WindowsTalk MintResult := do
  let signJson ← askForSignatures begun
  let header ← nativeFinalize sid signJson
  return { authorizationHeader := header, bindingHex := begun.bindingHex }

theorem mintWith_eq (sid : UInt64) : mintWith sid = (nativeBegin sid 1 >>= mintBegun sid) := rfl

/-- The end of a direct mint. -/
def directMintEnd (bindingHex : String) (headers : Outcome MobileError (List String)) :
    DirectTalk MintResult := do
  match ← Talk.lift (headers.mapErr fun e => .eatPass e.message) with
  | [] => Talk.lift (.err (.eatPass "issuer returned no token"))
  | header :: _ => return { authorizationHeader := header, bindingHex }

/-- The rest of a direct mint, once its client is made. -/
def directMintWith (C : Crypto) (client : EatPassClient C) (coins : Coins) :
    DirectTalk MintResult := do
  let signJson ← askForSignatures (client.begin C [coins]).2
  directMintEnd (client.begin C [coins]).2.bindingHex
    ((client.begin C [coins]).1.finalize C signJson).2

theorem directMint_eq (config : EatPassConfig) (coins : Coins) :
    directMint C equalsIgnoreCase config coins = (do
      let keysJson ← fetchKeys equalsIgnoreCase config
      let client ← Talk.lift ((EatPassClient.new C keysJson config.issuerName
        config.originInfo).mapErr fun e => .eatPass e.message)
      directMintWith C client coins) := rfl

theorem mirrors_mintWith (sid : UInt64) (client : EatPassClient C) :
    Mirrors C (some (sid, client)) ((mintWith sid).andFinally (nativeDispose sid))
      (directMintWith C client) := by
  rw [mintWith_eq]
  refine .beginning (fun c => ?_) fun e => broken_finally sid e
  change Mirrors C _ ((mintBegun sid (client.begin C [c]).2).andFinally (nativeDispose sid))
    fun _ => directMintWith C client c
  refine mirrors_askForSignatures fun signJson => ?_
  refine .finishing (fun headers hheaders => ?_) (fun e he => ?_) fun e => broken_finally sid e
  · obtain ⟨response, tokens, -, htokens, rfl⟩ := begin_finalize.mp hheaders
    obtain ⟨token, rfl⟩ := List.length_eq_one_iff.mp (finalize_singleton htokens)
    rw [hheaders]
    exact mirrors_finally_done _
  · rw [he]
    exact mirrors_finally_done _

/-- **A mint of the Windows SDK mirrors a direct mint.** -/
theorem mirrors_mint (config : EatPassConfig) :
    Mirrors C none (mintAuthorizationHeaderAsync equalsIgnoreCase config)
      (directMint C equalsIgnoreCase config) := by
  refine mirrors_fetchKeys fun keysJson => ?_
  refine .opening (fun e he => ?_) (fun sid client hclient => ?_) fun e => .ended e
  · rw [he]
    exact .ended _
  · rw [hclient]
    exact mirrors_mintWith sid client

/-! ## A line of a mint -/

/-- The ids of the helper are counted up: `n` of them are used. -/
structure IdsUpTo (f : FfiState C) (n : Nat) : Prop where
  next : f.nextId = UInt64.ofNat (1 + n)
  used : ∀ sid, f.clients sid ≠ none → ∃ j < n, sid = UInt64.ofNat (1 + j)

/-- The helper keeps the sessions of the mints, and no others. -/
structure Keeping (f : FfiState C) (owners : Nat → Option (UInt64 × EatPassClient C)) (n : Nat) :
    Prop where
  ids : IdsUpTo f n
  owned : Owned f.clients owners

theorem IdsUpTo.fresh {f : FfiState C} {n : Nat} (h : IdsUpTo f n) (hn : n < 2 ^ 64) :
    f.clients f.nextId = none := by
  by_contra hne
  obtain ⟨j, hj, heq⟩ := h.used _ hne
  have hmod := congrArg UInt64.toNat (h.next.symm.trans heq)
  simp only [UInt64.toNat_ofNat'] at hmod
  omega

/-- The sessions change, but none is made. -/
theorem IdsUpTo.change {f : FfiState C} {n : Nat} (h : IdsUpTo f n)
    {clients : UInt64 → Option (EatPassClient C)}
    (hclients : ∀ sid, clients sid ≠ none → f.clients sid ≠ none) :
    IdsUpTo { f with clients } n :=
  ⟨h.next, fun sid hsid => h.used sid (hclients sid hsid)⟩

/-- One more id is used, for a session or not. -/
theorem IdsUpTo.bump {f : FfiState C} {n : Nat} (h : IdsUpTo f n)
    {clients : UInt64 → Option (EatPassClient C)}
    (hclients : ∀ sid, clients sid ≠ none → sid = f.nextId ∨ f.clients sid ≠ none) :
    IdsUpTo ⟨f.nextId + 1, clients⟩ (n + 1) := by
  refine ⟨by rw [h.next, ofNat_succ], fun sid hsid => ?_⟩
  rcases hclients sid hsid with rfl | hold
  · exact ⟨n, Nat.lt_succ_self n, h.next⟩
  · obtain ⟨j, hj, heq⟩ := h.used sid hold
    exact ⟨j, Nat.lt_succ_of_lt hj, heq⟩

theorem update_ne_none {clients : UInt64 → Option (EatPassClient C)} {sid id : UInt64}
    {client : Option (EatPassClient C)}
    (h : Function.update clients sid client id ≠ none) : id = sid ∨ clients id ≠ none := by
  by_cases hid : id = sid
  · exact .inl hid
  · rw [Function.update_of_ne hid] at h
    exact .inr h

/-- A mint calls its session. -/
theorem Keeping.change {f : FfiState C} {owners : Nat → Option (UInt64 × EatPassClient C)} {n : Nat}
    (h : Keeping f owners n) {i : Nat} {sid : UInt64} {client : EatPassClient C}
    (hi : owners i = some (sid, client)) (client' : EatPassClient C) :
    Keeping { f with clients := Function.update f.clients sid (some client') }
      (Function.update owners i (some (sid, client'))) n := by
  refine ⟨h.ids.change fun id hid => ?_, h.owned.put client' (fun k b hk => ?_) fun j b hj => ?_⟩
  · rcases update_ne_none hid with rfl | hold
    · rw [h.owned.found hi]
      exact Option.some_ne_none client
    · exact hold
  · rw [hi] at hk
    cases hk
    rfl
  · exact h.owned.apart j i sid b client hj hi

section

variable {f f' : FfiState C} {line : FfiLine} {chance : RpcChance}

theorem helper_ok {result : FfiResult} (h : f.handle C line chance.random = (f', .ok result)) :
    (helperDesk C).serve (some f) chance line = (some f', .ok (.ok result)) := by
  simp only [helperDesk, h]

theorem helper_err {message : String} (h : f.handle C line chance.random = (f', .err message)) :
    (helperDesk C).serve (some f) chance line = (some f', .ok (.error message)) := by
  simp only [helperDesk, h]

end

section

variable {f : FfiState C} {sid : UInt64} {client : EatPassClient C}
  {random : Nat → Bytes 32 × Bytes 32}

theorem handle_newLine_ok {json : Except String IssuerPublicKey} {issuerName originInfo : String}
    (h : EatPassClient.new C json issuerName originInfo = .ok client) :
    f.handle C (newLine json issuerName originInfo) random
      = (⟨f.nextId + 1, Function.update f.clients f.nextId (some client)⟩,
        .ok (.id f.nextId)) := by
  simp only [FfiState.handle, newLine, rpcLine, h]

theorem handle_newLine_err {json : Except String IssuerPublicKey} {issuerName originInfo : String}
    {e : MobileError} (h : EatPassClient.new C json issuerName originInfo = .err e) :
    f.handle C (newLine json issuerName originInfo) random
      = (⟨f.nextId + 1, f.clients⟩, .err e.message) := by
  simp only [FfiState.handle, newLine, rpcLine, h]

/-- A count of one draws one pair of values. -/
theorem handle_beginLine (h : f.clients sid = some client) :
    f.handle C (beginLine sid 1) random
      = ({ f with clients := Function.update f.clients sid (some (client.begin C [random 0]).1) },
        .ok (.begun (client.begin C [random 0]).2)) := by
  simp only [FfiState.handle, beginLine, rpcLine, h]
  rfl

theorem handle_finalizeLine (h : f.clients sid = some client)
    (json : Except String SignResponse) :
    f.handle C (finalizeLine sid json) random
      = ({ f with clients := Function.update f.clients sid (some (client.finalize C json).1) },
        .ofClient (.finalized (client.finalize C json).2)) := by
  simp only [FfiState.handle, finalizeLine, rpcLine, h]

theorem handle_dropLine :
    f.handle C (dropLine sid) random
      = ({ f with clients := Function.update f.clients sid none }, .ok .empty) := rfl

end

/--
**A line of a mint, while the helper is there.** The mint mirrors the direct one after the answer
too. Only its own session is touched.
-/
theorem served_mirrors {f : FfiState C} {owners : Nat → Option (UInt64 × EatPassClient C)} {n : Nat}
    (hkeep : Keeping f owners n) (hn : n < 2 ^ 64) {i : Nat} {line : FfiLine}
    {next : RpcAnswer → WindowsTalk MintResult} {t' : Coins → DirectTalk MintResult}
    (h : Mirrors C (owners i) (.ask (.inr line) next) t') (chance : RpcChance) :
    ∃ (f' : FfiState C) (r : RpcAnswer) (v' : Option (UInt64 × EatPassClient C)) (n' : Nat),
      (helperDesk C).serve (some f) chance line = (some f', r) ∧ n' ≤ n + 1 ∧
      Keeping f' (Function.update owners i v') n' ∧
      Mirrors C v' (next r) fun c => t' ((drawnFor chance r).getD c) := by
  generalize hv : owners i = v at h
  cases h with
  | @opening json issuerName originInfo next _ hbad hgood _ =>
    cases hmade : EatPassClient.new C json issuerName originInfo with
    | panic => cases json <;> cases hmade
    | err e =>
      have hidle : Function.update owners i none = owners := by rw [← hv, Function.update_eq_self]
      refine ⟨_, _, none, n + 1, helper_err (handle_newLine_err hmade), Nat.le_refl _, ⟨?_, ?_⟩,
        hbad e hmade⟩
      · exact hkeep.ids.bump fun sid hsid => .inr hsid
      · rw [hidle]
        exact hkeep.owned
    | ok client =>
      have hfresh := hkeep.ids.fresh hn
      refine ⟨_, _, some (f.nextId, client), n + 1, helper_ok (handle_newLine_ok hmade),
        Nat.le_refl _, ⟨?_, ?_⟩, hgood f.nextId client hmade⟩
      · exact hkeep.ids.bump fun sid hsid => update_ne_none hsid
      · refine hkeep.owned.put client (fun k b hk => ?_) fun j b hj => ?_
        · rw [hv] at hk
          cases hk
        · rw [hkeep.owned.found hj] at hfresh
          cases hfresh
  | @beginning sid client next _ hnext _ =>
    have hhandle := @handle_beginLine C f sid client chance.random (hkeep.owned.found hv)
    exact ⟨_, _, some (sid, (client.begin C [chance.random 0]).1), n,
      helper_ok hhandle, Nat.le_succ n, hkeep.change hv _, hnext (chance.random 0)⟩
  | @finishing sid client json next _ hok herr _ =>
    have hhandle := @handle_finalizeLine C f sid client chance.random (hkeep.owned.found hv) json
    cases hfinal : (client.finalize C json).2 with
    | panic => exact absurd hfinal (client.finalize_ne_panic json)
    | err e =>
      rw [hfinal] at hhandle
      exact ⟨_, _, some (sid, (client.finalize C json).1), n, helper_err hhandle,
        Nat.le_succ n, hkeep.change hv _, herr e hfinal⟩
    | ok headers =>
      rw [hfinal] at hhandle
      exact ⟨_, _, some (sid, (client.finalize C json).1), n, helper_ok hhandle,
        Nat.le_succ n, hkeep.change hv _, hok headers hfinal⟩
  | @disposing sid client next _ hnext =>
    refine ⟨_, _, none, n, helper_ok handle_dropLine, Nat.le_succ n,
      ⟨?_, hkeep.owned.drop hv⟩, hnext _⟩
    refine hkeep.ids.change fun id hid => ?_
    rcases update_ne_none hid with rfl | hold
    · exact absurd (Function.update_self ..) hid
    · exact hold

/-- A line of a mint, once the helper is gone: the call throws, and the mint comes to its end. -/
theorem gone_broken {v : Option (UInt64 × EatPassClient C)} {line : FfiLine}
    {next : RpcAnswer → WindowsTalk MintResult} {t' : Coins → DirectTalk MintResult}
    (h : Mirrors C v (.ask (.inr line) next) t') (e : WindowsFailure) :
    Mirrors C none (next (.error e)) t' ∨ Broken (next (.error e)) := by
  cases h with
  | opening _ _ hgone => exact .inr (hgone e)
  | beginning _ hgone => exact .inr (hgone e)
  | finishing _ _ hgone => exact .inr (hgone e)
  | disposing hnext => exact .inl (hnext (.error e))

/-! ## All mints -/

/-- The mints of a process and what they have said. -/
abbrev WindowsMint :=
  Member ServiceQuestion.Answer (fun _ : FfiLine => RpcAnswer) EatPassConfig WindowsFailure
    MintResult

/-- What the mint has said to the services is what a direct mint says that goes on with `t'`, for
the values that were drawn, or for any as long as none are. -/
def SaysAs (C : Crypto) (equalsIgnoreCase : String → String → Bool) (chances : List RpcChance)
    (m : WindowsMint) (t' : Coins → DirectTalk MintResult) : Prop :=
  ∃ l : DirectLog, outside l = outside m.said ∧ ∀ c,
    Talk.Says (directMint C equalsIgnoreCase m.args ((drawn m.said chances).getD c)) l (t' c)

/-- Where a mint stands: it goes on as a direct mint, or it has lost the helper. -/
def Standing (C : Crypto) (equalsIgnoreCase : String → String → Bool) (gone : Prop)
    (v : Option (UInt64 × EatPassClient C)) (chances : List RpcChance) (m : WindowsMint) : Prop :=
  ∃ t', SaysAs C equalsIgnoreCase chances m t' ∧ (Mirrors C v m.rest t' ∨ gone ∧ Broken m.rest)

/-- What holds of a process after at most `n` lines, those of each mint served with its chances: who
owns which session, and where every mint stands. -/
def ProcessInv (equalsIgnoreCase : String → String → Bool) (n : Nat)
    (chances : Nat → List RpcChance) (s : WindowsProcess C) : Prop :=
  ∃ owners, (∀ i, s.members i = none → owners i = none) ∧
    (∀ f, s.desk = some f → ∃ k ≤ n, Keeping f owners k) ∧
    ∀ i m, s.members i = some m →
      Standing C equalsIgnoreCase (s.desk = none) (owners i) (chances i) m

theorem SaysAs.answered {chances : List RpcChance} {args : EatPassConfig} {said : WindowsLog}
    {q : ServiceQuestion} {next : q.Answer → WindowsTalk MintResult}
    {next' : Coins → q.Answer → DirectTalk MintResult}
    (h : SaysAs C equalsIgnoreCase chances ⟨args, said, .ask (.inl q) next⟩
      fun c => .ask (.inl q) (next' c))
    (a : q.Answer) :
    SaysAs C equalsIgnoreCase chances ⟨args, said ++ [⟨.inl q, a⟩], next a⟩
      fun c => next' c a := by
  obtain ⟨l, hl, hsaid⟩ := h
  refine ⟨l ++ [⟨.inl q, a⟩], ?_, fun c => ?_⟩
  · rw [outside_snoc_inl, outside_snoc_inl, hl]
  · rw [drawn_snoc_inl]
    exact Talk.Says.snoc (hsaid c) a

/-- A line is not said to the services. It settles the values if some are drawn for its answer. -/
theorem SaysAs.served {chances : List RpcChance} {args : EatPassConfig} {said : WindowsLog}
    {line : FfiLine} {rest rest' : WindowsTalk MintResult} {t' : Coins → DirectTalk MintResult}
    (h : SaysAs C equalsIgnoreCase chances ⟨args, said, rest⟩ t')
    (hlen : (inside said).length = chances.length) (r : RpcAnswer) (chance : RpcChance) :
    SaysAs C equalsIgnoreCase (chances ++ [chance]) ⟨args, said ++ [⟨.inr line, r⟩], rest'⟩
      fun c => t' ((drawnFor chance r).getD c) := by
  obtain ⟨l, hl, hsaid⟩ := h
  refine ⟨l, by rw [outside_snoc_inr, hl], fun c => ?_⟩
  rw [drawn_snoc_inr hlen, Option.getD_or]
  exact hsaid _

theorem Standing.answered {gone : Prop} {v : Option (UInt64 × EatPassClient C)}
    {chances : List RpcChance} {args : EatPassConfig} {said : WindowsLog}
    {q : ServiceQuestion} {next : q.Answer → WindowsTalk MintResult}
    (h : Standing C equalsIgnoreCase gone v chances ⟨args, said, .ask (.inl q) next⟩)
    (a : q.Answer) :
    Standing C equalsIgnoreCase gone v chances ⟨args, said ++ [⟨.inl q, a⟩], next a⟩ := by
  obtain ⟨t', hsaid, hm | ⟨-, hb⟩⟩ := h
  · cases hm with
    | service hnext => exact ⟨_, hsaid.answered a, .inl (hnext a)⟩
  · cases hb

theorem Standing.mono {gone gone' : Prop} {v : Option (UInt64 × EatPassClient C)}
    {chances : List RpcChance} {m : WindowsMint}
    (h : Standing C equalsIgnoreCase gone v chances m) (hgone : gone → gone') :
    Standing C equalsIgnoreCase gone' v chances m := by
  obtain ⟨t', hsaid, hm | ⟨hg, hb⟩⟩ := h
  · exact ⟨t', hsaid, .inl hm⟩
  · exact ⟨t', hsaid, .inr ⟨hgone hg, hb⟩⟩

/-- A line of a mint that has lost the helper, or loses it now. Nothing is drawn for it. -/
theorem Standing.lost {gone : Prop} {v : Option (UInt64 × EatPassClient C)}
    {chances : List RpcChance} {args : EatPassConfig} {said : WindowsLog}
    {line : FfiLine} {next : RpcAnswer → WindowsTalk MintResult}
    (h : Standing C equalsIgnoreCase gone v chances ⟨args, said, .ask (.inr line) next⟩)
    (hlen : (inside said).length = chances.length) (e : WindowsFailure) (chance : RpcChance) :
    Standing C equalsIgnoreCase True none (chances ++ [chance])
      ⟨args, said ++ [⟨.inr line, .error e⟩], next (.error e)⟩ := by
  obtain ⟨t', hsaid, hstands⟩ := h
  refine ⟨t', hsaid.served hlen (.error e) chance, ?_⟩
  rcases hstands with hm | ⟨-, hb⟩
  · exact (gone_broken hm e).imp_right fun hb => ⟨trivial, hb⟩
  · cases hb with
    | calling hnext => exact .inr ⟨trivial, hnext _⟩

/-- What a mint has said, and how it has ended, is what a direct mint says and ends in. -/
theorem Standing.direct {gone : Prop} {v : Option (UInt64 × EatPassClient C)}
    {chances : List RpcChance} {m : WindowsMint}
    (h : Standing C equalsIgnoreCase gone v chances m) :
    ∃ coins l t', (∀ c, drawn m.said chances = some c → coins = c) ∧
      Talk.Says (directMint C equalsIgnoreCase m.args coins) l t' ∧ outside l = outside m.said ∧
      ∀ r, m.rest = .done r → t' = .done r ∨ gone ∧ ∃ e, r = .err e := by
  obtain ⟨t', ⟨l, hl, hsaid⟩, hstands⟩ := h
  let c : Coins := (sampleSigningKey, sampleSigningKey)
  refine ⟨(drawn m.said chances).getD c, l, t' c, fun c' hc' => by rw [hc', Option.getD_some],
    hsaid c, hl, fun r hr => ?_⟩
  rw [hr] at hstands
  rcases hstands with hmir | ⟨hgone, hbroken⟩
  · cases hmir
    exact .inl rfl
  · cases hbroken with
    | ended e => exact .inr ⟨hgone, e, rfl⟩

theorem ProcessInv.start :
    ProcessInv equalsIgnoreCase 0 (fun _ => []) (WindowsProcess.start C) := by
  refine ⟨fun _ => none, fun _ _ => rfl, fun f hf => ⟨0, Nat.le_refl 0, ?_⟩,
    fun i m hm => by cases hm⟩
  cases hf
  exact ⟨⟨rfl, fun sid hsid => absurd rfl hsid⟩, Owned.empty⟩

theorem ProcessInv.mono {n n' : Nat} {chances : Nat → List RpcChance} {s : WindowsProcess C}
    (h : ProcessInv equalsIgnoreCase n chances s) (hn : n ≤ n') :
    ProcessInv equalsIgnoreCase n' chances s := by
  obtain ⟨owners, hidle, hkeep, hstand⟩ := h
  refine ⟨owners, hidle, fun f hf => ?_, hstand⟩
  obtain ⟨k, hk, hkeeping⟩ := hkeep f hf
  exact ⟨k, hk.trans hn, hkeeping⟩

/-- A member that is there does not become absent. -/
theorem idle_update {members : Nat → Option WindowsMint}
    {owners : Nat → Option (UInt64 × EatPassClient C)}
    (h : ∀ i, members i = none → owners i = none) (i : Nat) (m : WindowsMint)
    (v : Option (UInt64 × EatPassClient C)) :
    ∀ j, Function.update members i (some m) j = none → Function.update owners i v j = none := by
  intro j hj
  by_cases hji : j = i
  · rw [hji, Function.update_self] at hj
    cases hj
  · rw [Function.update_of_ne hji] at hj ⊢
    exact h j hj

theorem idle_keep {members : Nat → Option WindowsMint}
    {owners : Nat → Option (UInt64 × EatPassClient C)}
    (h : ∀ i, members i = none → owners i = none) (i : Nat) (m : WindowsMint) :
    ∀ j, Function.update members i (some m) j = none → owners j = none := by
  have hsame := idle_update h i m (owners i)
  rwa [Function.update_eq_self] at hsame

/-- The chance of the event, if it is a line of the mint `i`. -/
def lineChance (i : Nat) (e : WindowsEvent C) : Option RpcChance := e.chanceFor i

/-- The chances with which the lines of the mint `i` were served. -/
def lineChances (i : Nat) (h : List (WindowsEvent C × Unit)) : List RpcChance := Crowd.chances i h

/-- The event is a line to the helper. -/
def isLine : WindowsEvent C → Bool
  | .serve _ _ => true
  | _ => false

theorem ProcessInv.step {n : Nat} {chances chances' : Nat → List RpcChance}
    {s s' : WindowsProcess C} {e : WindowsEvent C} {u : Unit}
    (h : ProcessInv equalsIgnoreCase n chances s) (hn : isLine e = true → n < 2 ^ 64)
    (hlen : ∀ i, (Crowd.calls s i).length = (chances i).length)
    (hchances : ∀ i, chances' i = chances i ++ (lineChance i e).toList)
    (hstep : WindowsProcess.step C equalsIgnoreCase s e = some (s', u)) :
    ProcessInv equalsIgnoreCase (n + if isLine e then 1 else 0) chances' s' := by
  -- without a line, everything was served before
  have hsame : (∀ i, lineChance i e = none) → chances' = chances := fun hnone =>
    funext fun i => by rw [hchances, hnone]; exact List.append_nil _
  obtain ⟨owners, hidle, hkeep, hstand⟩ := h
  cases Crowd.step_cases hstep with
  | started i args event free state =>
    refine ProcessInv.mono (n := n) ?_ (Nat.le_add_right _ _)
    obtain rfl := hsame fun _ => by rw [event]; rfl
    rw [state]
    refine ⟨owners, idle_keep hidle i _, hkeep, ?_⟩
    refine Crowd.forall_members_update (fun j m _ hm => hstand j m hm) ?_
    rw [hidle i free]
    exact ⟨_, ⟨[], rfl, fun _ => .nil⟩, .inl (mirrors_mint args)⟩
  | answered i oracle args said q next event asking state =>
    refine ProcessInv.mono (n := n) ?_ (Nat.le_add_right _ _)
    obtain rfl := hsame fun _ => by rw [event]; rfl
    rw [state]
    refine ⟨owners, idle_keep hidle i _, hkeep, ?_⟩
    exact Crowd.forall_members_update (fun j m _ hm => hstand j m hm)
      ((hstand i _ asking).answered (oracle q))
  | moved m event state =>
    refine ProcessInv.mono (n := n) ?_ (Nat.le_add_right _ _)
    obtain rfl := hsame fun _ => by rw [event]; rfl
    rw [state]
    refine ⟨owners, hidle, fun f hf => (by cases hf), fun i m hm => ?_⟩
    exact (hstand i m hm).mono fun _ => rfl
  | served i chance args said line next event asking state =>
    have hline : isLine e = true := by rw [event]; rfl
    have hthese : chances' i = chances i ++ ([chance] : List RpcChance) := by
      rw [hchances, event, lineChance, Crowd.Event.chanceFor, if_pos rfl]
      rfl
    have hothers : ∀ j, j ≠ i → chances' j = chances j := by
      intro j hj
      rw [hchances, event, lineChance, Crowd.Event.chanceFor, if_neg (Ne.symm hj)]
      exact List.append_nil _
    have hsaidlen : (inside said).length = (chances i).length := by
      rw [← hlen i, Crowd.calls, asking]
      rfl
    rw [if_pos hline, state]
    have hthis := hstand i _ asking
    cases hdesk : s.desk with
    | none =>
      refine ⟨Function.update owners i none, idle_update hidle i _ none,
        fun f hf => (by cases hf), ?_⟩
      refine Crowd.forall_members_update (fun j m hji hm => ?_) ?_
      · rw [Function.update_of_ne hji, hothers j hji]
        exact (hstand j m hm).mono fun _ => rfl
      · rw [Function.update_self, hthese]
        exact (hthis.lost hsaidlen chance.failure chance).mono fun _ => rfl
    | some f =>
      obtain ⟨k, hk, hkeeping⟩ := hkeep f hdesk
      obtain ⟨t', hsaid, hm | ⟨hgone, -⟩⟩ := hthis
      · obtain ⟨f', r, v', k', hserve, hk', hkeeping', hm'⟩ :=
          served_mirrors hkeeping (Nat.lt_of_le_of_lt hk (hn hline)) hm chance
        rw [hserve]
        refine ⟨Function.update owners i v', idle_update hidle i _ v', fun g hg => ?_, ?_⟩
        · cases hg
          exact ⟨k', hk'.trans (Nat.succ_le_succ hk), hkeeping'⟩
        · refine Crowd.forall_members_update (fun j m hji hm => ?_) ?_
          · rw [Function.update_of_ne hji, hothers j hji]
            exact (hstand j m hm).mono fun hnone => by rw [hdesk] at hnone; cases hnone
          · rw [Function.update_self, hthese]
            exact ⟨_, hsaid.served hsaidlen r chance, .inl hm'⟩
      · rw [hdesk] at hgone
        cases hgone

/-- The lines that were written to the helper. -/
def linesOf (h : List (WindowsEvent C × Unit)) :
    Nat :=
  h.countP fun x => isLine x.1

theorem linesOf_snoc (h : List (WindowsEvent C × Unit)) (x : WindowsEvent C × Unit) :
    linesOf (h ++ [x]) = linesOf h + if isLine x.1 then 1 else 0 := by
  rw [linesOf, List.countP_append, List.countP_singleton]
  rfl

theorem process_inv {h : List (WindowsEvent C × Unit)}
    {s : WindowsProcess C} (ht : Trace (WindowsProcess.step C equalsIgnoreCase) (.start C) h s)
    (hlines : linesOf h ≤ 2 ^ 64) :
    ProcessInv equalsIgnoreCase (linesOf h) (lineChances · h) s := by
  induction ht with
  | init => exact ProcessInv.start
  | @snoc h s s' e u ht hstep ih =>
    rw [linesOf_snoc] at hlines ⊢
    refine (ih ((Nat.le_add_right _ _).trans hlines)).step (fun hline => ?_)
      (Crowd.length_calls ht) (fun i => Crowd.chances_snoc i h e u) hstep
    rw [if_pos hline] at hlines
    exact hlines

/-! ## Two mints at once -/

/-- The answers of an honest issuer, and of an attester and a collector that are content. -/
def sampleAnswers (issuer : Issuer) : (q : ServiceQuestion) → q.Answer
  | .keys => .ok (.ok issuer.public)
  | .kt => .ok ""
  | .collect _ => .ok "{}"
  | .authorize _ => .ok ""
  | .sign body => .ok (.ok (issuerSign Crypto.sample issuer.sk body.req.body))

def sampleChance : RpcChance where
  random _ := (sampleSigningKey, sampleSigningKey)
  failure := .raised "IOException"

/-- Two mints open their sessions, and the second one goes on to its end. -/
def twoMints (issuer : Issuer) : List (WindowsEvent Crypto.sample) :=
  [.start 0 {}, .start 1 {}, .answer 0 (sampleAnswers issuer), .answer 1 (sampleAnswers issuer),
    .serve 0 sampleChance, .serve 1 sampleChance, .serve 1 sampleChance,
    .answer 1 (sampleAnswers issuer), .answer 1 (sampleAnswers issuer),
    .answer 1 (sampleAnswers issuer), .serve 1 sampleChance, .serve 1 sampleChance]

theorem twoMints_run :
    ∃ s h m r f, exec (WindowsProcess.step Crypto.sample fun _ _ => true) (.start Crypto.sample)
        (twoMints (Issuer.generate Crypto.sample [1] 1)) = some (s, h) ∧ linesOf h ≤ 2 ^ 64 ∧
      s.members 1 = some m ∧ m.rest = .done (.ok r) ∧
      (m.args = {} ∧ ∀ y ∈ outside m.said,
        y.2 = sampleAnswers (Issuer.generate Crypto.sample [1] 1) y.1) ∧
      s.desk = some f ∧ (f.clients 1).isSome = true ∧ (f.clients 2).isSome = false ∧
      drawn m.said (lineChances 1 h) = some (sampleChance.random 0) := by
  refine ⟨_, _, _, _, _, rfl, ?_, rfl, rfl, ⟨rfl, ?_⟩, rfl, rfl, rfl, rfl⟩
  · decide
  · -- the key, the evidence, the authorization and the signatures
    exact List.forall_mem_cons.mpr ⟨rfl, List.forall_mem_cons.mpr ⟨rfl, List.forall_mem_cons.mpr
      ⟨rfl, List.forall_mem_cons.mpr ⟨rfl, List.forall_mem_nil _⟩⟩⟩⟩

/-! ## What a process keeps -/

/--
**A mint over the shared helper is a mint with a client of its own.** Whatever other mints the
process runs and however they interleave: what a mint has said to the services and the collector is
what a direct mint says, for the values the helper drew for its batch; and it ends as the direct
mint does, unless the helper is gone and it throws.
-/
theorem windows_mint_direct
    {h : List (WindowsEvent C × Unit)}
    {s : WindowsProcess C} (ht : Trace (WindowsProcess.step C equalsIgnoreCase) (.start C) h s)
    (hlines : linesOf h ≤ 2 ^ 64) {i : Nat} {m : WindowsMint} (hm : s.members i = some m) :
    ∃ coins l t', (∀ c, drawn m.said (lineChances i h) = some c → coins = c) ∧
      Talk.Says (directMint C equalsIgnoreCase m.args coins) l t' ∧
      outside l = outside m.said ∧
      ∀ r, m.rest = .done r → t' = .done r ∨ s.desk = none ∧ ∃ e, r = .err e := by
  obtain ⟨owners, -, -, hstand⟩ := process_inv ht hlines
  exact (hstand i m hm).direct

theorem windows_mint_direct_twoMints :
    ∃ (s : WindowsProcess Crypto.sample) (h : List (WindowsEvent Crypto.sample × Unit))
      (m : WindowsMint) (r : MintResult) (l : DirectLog),
      Trace (WindowsProcess.step Crypto.sample fun _ _ => true) (.start Crypto.sample) h s ∧
      s.members 1 = some m ∧ m.rest = .done (.ok r) ∧
      Talk.Says (directMint Crypto.sample (fun _ _ => true) m.args (sampleChance.random 0)) l
        (.done (.ok r)) ∧
      outside l = outside m.said := by
  obtain ⟨s, h, m, r, f, hexec, hlines, hm, hr, -, -, -, -, hdrawn⟩ := twoMints_run
  have ht := Trace.of_exec hexec
  obtain ⟨coins, l, t', hcoins, hsaid, hl, hend⟩ := windows_mint_direct ht hlines hm
  obtain rfl := hcoins _ hdrawn
  rcases hend _ hr with rfl | ⟨-, e, he⟩
  · exact ⟨s, h, m, r, l, ht, hm, hr, hsaid, hl⟩
  · cases he

/--
**The sessions of the helper belong to the mints that run.** Each session has its own mint, which
has not ended; so once every mint has ended, the helper keeps no client.
-/
theorem windows_sessions_owned
    {h : List (WindowsEvent C × Unit)}
    {s : WindowsProcess C} (ht : Trace (WindowsProcess.step C equalsIgnoreCase) (.start C) h s)
    (hlines : linesOf h ≤ 2 ^ 64) {f : FfiState C} (hf : s.desk = some f) :
    ∃ owner : UInt64 → Nat,
      (∀ sid, f.clients sid ≠ none → ∃ m, s.members (owner sid) = some m ∧ ∀ r, m.rest ≠ .done r) ∧
      ∀ sid sid', f.clients sid ≠ none → f.clients sid' ≠ none → owner sid = owner sid' →
        sid = sid' := by
  obtain ⟨owners, hidle, hkeep, hstand⟩ := process_inv ht hlines
  obtain ⟨k, -, hkeeping⟩ := hkeep f hf
  have howner : ∀ sid, ∃ i, f.clients sid ≠ none → ∃ client, owners i = some (sid, client) := by
    intro sid
    cases hsid : f.clients sid with
    | none => exact ⟨0, fun hne => absurd rfl hne⟩
    | some client =>
      obtain ⟨i, hi⟩ := (hkeeping.owned.entry_iff sid client).mp hsid
      exact ⟨i, fun _ => ⟨client, hi⟩⟩
  choose owner howner using howner
  refine ⟨owner, fun sid hsid => ?_, fun sid sid' hsid hsid' heq => ?_⟩
  · obtain ⟨client, hclient⟩ := howner sid hsid
    cases hm : s.members (owner sid) with
    | none =>
      rw [hidle _ hm] at hclient
      cases hclient
    | some m =>
      refine ⟨m, rfl, fun r hr => ?_⟩
      obtain ⟨t', -, hmir | ⟨hgone, -⟩⟩ := hstand _ m hm
      · rw [hclient, hr] at hmir
        cases hmir
      · rw [hf] at hgone
        cases hgone
  · obtain ⟨client, hclient⟩ := howner sid hsid
    obtain ⟨client', hclient'⟩ := howner sid' hsid'
    rw [heq, hclient'] at hclient
    cases hclient
    rfl

/-- After the run of the two mints, the session 1 has a mint that has not ended. -/
theorem windows_sessions_owned_twoMints :
    ∃ (s : WindowsProcess Crypto.sample) (h : List (WindowsEvent Crypto.sample × Unit))
      (f : FfiState Crypto.sample) (i : Nat) (m : WindowsMint),
      Trace (WindowsProcess.step Crypto.sample fun _ _ => true) (.start Crypto.sample) h s ∧
      s.desk = some f ∧ f.clients 1 ≠ none ∧ s.members i = some m ∧ ∀ r, m.rest ≠ .done r := by
  obtain ⟨s, h, m, r, f, hexec, hlines, hm, hr, -, hf, hone, -, -⟩ := twoMints_run
  have ht := Trace.of_exec hexec
  have hthere : f.clients 1 ≠ none := fun hnone => by rw [hnone] at hone; cases hone
  obtain ⟨owner, howner, -⟩ := windows_sessions_owned ht hlines hf
  obtain ⟨m', hm', hrun⟩ := howner 1 hthere
  exact ⟨s, h, f, _, m', ht, hf, hthere, hm', hrun⟩

end EatPass
