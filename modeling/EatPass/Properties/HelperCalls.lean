import EatPass.Properties.SharedHelper

/-!
# Calls on the shared helper

The sessions of the helper are numbered in the order of their lines, and any line may name any
number.

* `helper_run` — the helper of a Windows process has run as the stdio helper does
* `windows_calls_own` — a mint calls the session it was given, which no other mint was given
-/

namespace EatPass

open Infra

variable {C : Crypto} {equalsIgnoreCase : String → String → Bool}

/-- The session that a line calls. A `new` calls none. -/
def FfiLine.session (line : FfiLine) : Option UInt64 :=
  if line.op = "new" then none else some line.id

/-- The id in an answer. -/
def idIn : RpcAnswer → Option UInt64
  | .ok (.ok (.id id)) => some id
  | _ => none

/-- The id that the answer to a line gives. Only the answer to a `new` gives one. -/
def givenBy (line : FfiLine) (r : RpcAnswer) : Option UInt64 :=
  if line.op = "new" then idIn r else none

/-- The sessions that a mint has called. -/
def called (l : WindowsLog) : List UInt64 := (inside l).filterMap fun x => x.1.session

/-- The ids that a mint was given. -/
def given (l : WindowsLog) : List UInt64 := (inside l).filterMap fun x => givenBy x.1 x.2

/-- A mint calls the sessions that it was given. -/
def CallsOwn (l : WindowsLog) : Prop := ∀ id ∈ called l, id ∈ given l

theorem idIn_of_givenBy {line : FfiLine} {r : RpcAnswer} {id : UInt64}
    (h : givenBy line r = some id) : idIn r = some id := by
  unfold givenBy at h
  split at h
  · exact h
  · cases h

theorem given_snoc_inl (l : WindowsLog) (q : ServiceQuestion) (a : q.Answer) :
    given (l ++ [⟨.inl q, a⟩]) = given l := by
  rw [given, inside_snoc_inl]
  rfl

theorem given_snoc_inr (l : WindowsLog) (line : FfiLine) (r : RpcAnswer) :
    given (l ++ [⟨.inr line, r⟩]) = given l ++ (givenBy line r).toList := by
  rw [given, inside_snoc_inr, filterMap_snoc]
  rfl

theorem CallsOwn.answered {l : WindowsLog} (h : CallsOwn l) (q : ServiceQuestion) (a : q.Answer) :
    CallsOwn (l ++ [⟨.inl q, a⟩]) := by
  unfold CallsOwn
  rw [given_snoc_inl, called, inside_snoc_inl]
  exact h

theorem CallsOwn.line {l : WindowsLog} (h : CallsOwn l) {line : FfiLine}
    (hline : ∀ id, line.session = some id → id ∈ given l) (r : RpcAnswer) :
    CallsOwn (l ++ [⟨.inr line, r⟩]) := by
  intro id hid
  rw [called, inside_snoc_inr, filterMap_snoc] at hid
  rw [given_snoc_inr]
  rcases List.mem_append.mp hid with hold | hnew
  · exact List.mem_append_left _ (h id hold)
  · exact List.mem_append_left _ (hline id (Option.mem_toList.mp hnew))

/-! ## What a mint calls -/

/-- A line that does not call the session of `v`. -/
def Foreign (v : Option UInt64) : ServiceQuestion ⊕ FfiLine → Prop
  | .inl _ => False
  | .inr line => ∀ id, v = some id → line.session ≠ some id

theorem askService_avoids (v : Option UInt64) (q : ServiceQuestion) :
    (askService q : WindowsTalk q.Value).Avoids (Foreign v) :=
  .ask id fun _ => .lift _

theorem fetchKeys_avoids (config : EatPassConfig) :
    (fetchKeys equalsIgnoreCase config : WindowsTalk _).Avoids (Foreign none) := by
  refine .bind (askService_avoids none .keys) fun keysJson => ?_
  cases config.ktLogPubHex with
  | none => exact .lift _
  | some pin =>
    exact .bind (askService_avoids none .kt) fun _ => .lift_bind fun _ => .lift _

theorem rpc_avoids {line : FfiLine} {id : UInt64} (h : line.session = some id) :
    (rpc line).Avoids (Foreign (some id)) :=
  .ask (fun hforeign => hforeign id rfl h) fun _ => .lift_bind fun _ => .lift_bind fun _ =>
    .lift _

theorem mintWith_avoids (id : UInt64) : (mintWith id).Avoids (Foreign (some id)) := by
  refine .bind (.bind (rpc_avoids rfl) fun r => ?_) fun begun => ?_
  · cases r <;> exact .lift _
  · refine .bind ?_ fun signJson => ?_
    · refine .bind (askService_avoids _ _) fun bundleJson => ?_
      exact .bind (askService_avoids _ _) fun authorizationB64 => askService_avoids _ _
    · refine .bind (.bind (rpc_avoids rfl) fun r => ?_) fun header => .lift _
      cases r <;> exact .lift _

theorem nativeDispose_avoids (id : UInt64) : (nativeDispose id).Avoids (Foreign (some id)) :=
  .ask (fun hforeign => hforeign id rfl rfl) fun _ => .lift _

/-- A part that calls one session, which the mint was given before. -/
theorem holds_of_avoids {α : Type} {v : Option UInt64} {before : WindowsLog}
    {t : WindowsTalk α} (ht : t.Avoids (Foreign v)) (hbefore : CallsOwn before)
    (hv : ∀ id, v = some id → id ∈ given before) :
    t.Holds CallsOwn (fun l _ => CallsOwn l) before := by
  have hboth := ht.holds (I := fun l => CallsOwn l ∧ ∀ id, v = some id → id ∈ given l) ?_
    ⟨hbefore, hv⟩
  · exact fun log t' h => ⟨(hboth log t' h).1.1, fun a ha => ((hboth log t' h).2 a ha).1⟩
  · rintro l (q | line) a ⟨hown, hgiven⟩ hq
    · refine ⟨hown.answered q a, fun id hid => ?_⟩
      rw [given_snoc_inl l q a]
      exact hgiven id hid
    · refine ⟨hown.line (fun id hid => ?_) a, fun id hid => ?_⟩
      · -- the line is not foreign, so it calls the session of `v`
        obtain ⟨own, hv', hline⟩ : ∃ own, v = some own ∧ line.session = some own := by
          by_contra hno
          exact hq fun own hv' hline => hno ⟨own, hv', hline⟩
        rw [hline] at hid
        cases hid
        exact hgiven _ hv'
      · rw [given_snoc_inr l line a]
        exact List.mem_append_left _ (hgiven id hid)

theorem createClient_holds {before : WindowsLog} (hbefore : CallsOwn before)
    (json : Except String IssuerPublicKey) (issuerName originInfo : String) :
    (createClient json issuerName originInfo).Holds CallsOwn
      (fun l id => CallsOwn l ∧ id ∈ given l) before := by
  refine .ask hbefore fun r => ?_
  have hnew : CallsOwn (before ++ [⟨.inr (newLine json issuerName originInfo), r⟩]) :=
    hbefore.line (fun id hid => by cases hid) r
  cases r with
  | error e => exact .lift hnew fun _ h => by cases h
  | ok root =>
    cases root with
    | error message => exact .lift hnew fun _ h => by cases h
    | ok result =>
      cases result with
      | id id =>
        refine .pure hnew ⟨hnew, ?_⟩
        rw [given_snoc_inr before _ _]
        exact List.mem_append_right _ List.mem_cons_self
      | begun b => exact .lift hnew fun _ h => by cases h
      | authorizationHeader header => exact .lift hnew fun _ h => by cases h
      | empty => exact .lift hnew fun _ h => by cases h

/-- **Whatever a mint is answered, it calls the session that it was given.** -/
theorem mint_callsOwn (config : EatPassConfig) :
    (mintAuthorizationHeaderAsync equalsIgnoreCase config).Holds CallsOwn
      (fun l _ => CallsOwn l) [] := by
  refine .bind (holds_of_avoids (fetchKeys_avoids config) (by simp [CallsOwn, called, inside])
    (by simp)) ?_
  intro log keysJson hlog
  refine .bind (createClient_holds hlog _ _ _) fun log id hlog => ?_
  refine holds_of_avoids ((mintWith_avoids id).andFinally (nativeDispose_avoids id)) hlog.1 ?_
  intro id' hid
  cases hid
  exact hlog.2

/-! ## The run of the helper -/

/--
The helper has run on `lines`, with the answers it wrote. Every id a mint was given is one that was
handed out there, and `owner` says to which mint.
-/
structure HelperRun (lines : FfiHistory) (owner : UInt64 → Nat) (s : WindowsProcess C) : Prop where
  helper : ∀ f, s.desk = some f → Trace (FfiState.step C) (.start C) lines f
  ids : ∀ i m, s.members i = some m → ∀ id ∈ given m.said, id ∈ idsOf lines ∧ owner id = i

/-- The helper takes one line. If it panics, it is gone. -/
theorem serve_step (f : FfiState C) (chance : RpcChance) (line : FfiLine) :
    ∃ f' reply, f.step C (.line line chance.random) = some (f', some reply) ∧
      idIn ((helperDesk C).serve (some f) chance line).2 = handedOut (some reply) ∧
      ∀ g, ((helperDesk C).serve (some f) chance line).1 = some g → g = f' := by
  cases hhandle : f.handle C line chance.random with
  | mk f' reply =>
    refine ⟨f', reply, by simp only [FfiState.step, hhandle], ?_⟩
    cases reply with
    | ok result =>
      rw [helper_ok hhandle]
      refine ⟨?_, fun g hg => (Option.some.inj hg).symm⟩
      cases result <;> rfl
    | err message =>
      rw [helper_err hhandle]
      exact ⟨rfl, fun g hg => (Option.some.inj hg).symm⟩
    | panic =>
      simp only [helperDesk, hhandle]
      exact ⟨rfl, fun g hg => by cases hg⟩

/-- The line of a mint. What it is given was handed out to no other mint. -/
theorem HelperRun.serve {lines : FfiHistory} {owner : UInt64 → Nat} {s : WindowsProcess C}
    (hrun : HelperRun lines owner s) (hcount : newCount C lines < 2 ^ 64) {i : Nat}
    {chance : RpcChance} {args : EatPassConfig} {said : WindowsLog} {line : FfiLine}
    {next : RpcAnswer → WindowsTalk MintResult}
    (hasking : s.members i = some ⟨args, said, .ask (.inr line) next⟩) {d : Option (FfiState C)}
    {r : RpcAnswer} (hserve : (helperDesk C).serve s.desk chance line = (d, r)) :
    ∃ lines' owner', newCount C lines' ≤ newCount C lines + 1 ∧ HelperRun lines' owner'
      (⟨d, Function.update s.members i (some ⟨args, said ++ [⟨.inr line, r⟩], next r⟩)⟩ :
        WindowsProcess C) := by
  cases hdesk : s.desk with
  | none =>
    rw [hdesk] at hserve
    cases hserve
    refine ⟨lines, owner, Nat.le_succ _, ⟨fun f hf => (by cases hf), ?_⟩⟩
    refine Crowd.forall_members_update (fun j m _ hm => hrun.ids j m hm) fun id hid => ?_
    rw [given_snoc_inr said _ _] at hid
    exact hrun.ids i _ hasking id (by simpa [givenBy, idIn] using hid)
  | some f =>
    obtain ⟨f', reply, hstep, hgiven, hstate⟩ := serve_step f chance line
    rw [hdesk] at hserve
    rw [hserve] at hgiven hstate
    have ht : Trace (FfiState.step C) (.start C) _ f' := (hrun.helper f hdesk).snoc hstep
    have hlines : newCount C (lines ++ [(FfiInput.line line chance.random, some reply)])
        ≤ newCount C lines + 1 := by
      rw [newCount_snoc]
      split <;> omega
    have hnodup := (ids_counted ht).nodup (hlines.trans hcount)
    rw [idsOf_snoc] at hnodup
    have hold : ∀ j m, s.members j = some m → ∀ id ∈ given m.said,
        id ∈ idsOf lines ++ (handedOut (some reply)).toList ∧
          (if handedOut (some reply) = some id then i else owner id) = j := by
      intro j m hm id hid
      obtain ⟨hmem, howner⟩ := hrun.ids j m hm id hid
      refine ⟨List.mem_append_left _ hmem, ?_⟩
      rw [if_neg, howner]
      -- an id is not handed out again
      intro hagain
      rw [hagain] at hnodup
      exact List.disjoint_of_nodup_append hnodup hmem List.mem_cons_self
    refine ⟨_, fun id => if handedOut (some reply) = some id then i else owner id, hlines,
      ⟨fun g hg => hstate g hg ▸ ht, ?_⟩⟩
    rw [idsOf_snoc]
    refine Crowd.forall_members_update (fun j m _ hm => hold j m hm) fun id hid => ?_
    rw [given_snoc_inr said _ _] at hid
    rcases List.mem_append.mp hid with hid | hid
    · exact hold i _ hasking id hid
    · have hid := idIn_of_givenBy (Option.mem_toList.mp hid)
      rw [hgiven] at hid
      exact ⟨List.mem_append_right _ (Option.mem_toList.mpr hid), if_pos hid⟩

/-- **The helper of a Windows process runs as the stdio helper**, on the lines of the mints. -/
theorem helper_run {h : List (WindowsEvent C × Unit)} {s : WindowsProcess C}
    (ht : Trace (WindowsProcess.step C equalsIgnoreCase) (.start C) h s)
    (hlines : linesOf h ≤ 2 ^ 64) :
    ∃ lines owner, newCount C lines ≤ linesOf h ∧ HelperRun lines owner s := by
  induction ht with
  | init =>
    refine ⟨[], fun _ => 0, Nat.le_refl 0, ⟨fun f hf => ?_, fun i m hm => by cases hm⟩⟩
    cases hf
    exact .init
  | @snoc h s s' e u _ hstep ih =>
    rw [linesOf_snoc] at hlines ⊢
    obtain ⟨lines, owner, hcount, hrun⟩ := ih ((Nat.le_add_right _ _).trans hlines)
    have hcount' := hcount.trans (Nat.le_add_right _ (if isLine e then 1 else 0))
    cases Crowd.step_cases hstep with
    | started i args event free state =>
      rw [state]
      refine ⟨lines, owner, hcount', ⟨hrun.helper, ?_⟩⟩
      exact Crowd.forall_members_update (fun j m _ hm => hrun.ids j m hm) fun id hid => by cases hid
    | answered i oracle args said q next event asking state =>
      rw [state]
      refine ⟨lines, owner, hcount', ⟨hrun.helper, ?_⟩⟩
      refine Crowd.forall_members_update (fun j m _ hm => hrun.ids j m hm) fun id hid => ?_
      rw [given_snoc_inl] at hid
      exact hrun.ids i _ asking id hid
    | moved x event state =>
      rw [state]
      exact ⟨lines, owner, hcount', ⟨fun f hf => (by cases hf), hrun.ids⟩⟩
    | served i chance args said line next event asking state =>
      have hline : isLine e = true := by rw [event]; rfl
      rw [if_pos hline] at hlines ⊢
      rw [state]
      obtain ⟨lines', owner', hle, hrun'⟩ := hrun.serve (by omega) asking rfl
      exact ⟨lines', owner', hle.trans (Nat.succ_le_succ hcount), hrun'⟩

/--
**A mint calls its own session only.** Whatever mints run and however they interleave, each session
that a mint calls is one that it was given, and no other mint was given it.
-/
theorem windows_calls_own {h : List (WindowsEvent C × Unit)} {s : WindowsProcess C}
    (ht : Trace (WindowsProcess.step C equalsIgnoreCase) (.start C) h s)
    (hlines : linesOf h ≤ 2 ^ 64) {i : Nat} {m : WindowsMint} (hm : s.members i = some m)
    {id : UInt64} (hid : id ∈ called m.said) :
    id ∈ given m.said ∧ ∀ j m', s.members j = some m' → id ∈ given m'.said → j = i := by
  have hsaid := Crowd.member_speaks ht hm
  have hgiven := (mint_callsOwn m.args _ _ hsaid).1 id hid
  obtain ⟨lines, owner, -, hrun⟩ := helper_run ht hlines
  refine ⟨hgiven, fun j m' hm' hid' => ?_⟩
  have hi := (hrun.ids i m hm id hgiven).2
  have hj := (hrun.ids j m' hm' id hid').2
  exact hj.symm.trans hi

/-- The second of the two mints calls the session 2, which is not the first one's. -/
theorem windows_calls_own_twoMints :
    ∃ (s : WindowsProcess Crypto.sample) (h : List (WindowsEvent Crypto.sample × Unit))
      (m : WindowsMint),
      Trace (WindowsProcess.step Crypto.sample fun _ _ => true) (.start Crypto.sample) h s ∧
      s.members 1 = some m ∧ 2 ∈ called m.said ∧ 2 ∈ given m.said ∧
      ∀ j m', s.members j = some m' → 2 ∈ given m'.said → j = 1 := by
  obtain ⟨s, h, m, hexec, hlines, hm, hcalled⟩ :
      ∃ s h m, exec (WindowsProcess.step Crypto.sample fun _ _ => true) (.start Crypto.sample)
        (twoMints (Issuer.generate Crypto.sample [1] 1)) = some (s, h) ∧ linesOf h ≤ 2 ^ 64 ∧
        s.members 1 = some m ∧ 2 ∈ called m.said :=
    ⟨_, _, _, rfl, by decide, rfl, List.mem_cons_self⟩
  have ht := Trace.of_exec hexec
  exact ⟨s, h, m, ht, hm, hcalled, windows_calls_own ht hlines hm hcalled⟩

end EatPass
