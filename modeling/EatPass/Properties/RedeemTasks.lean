import EatPass.Cli.Redeemer
import EatPass.Infra.Locked
import EatPass.Infra.Matched

/-!
# Redemptions side by side

The redeemer runs a task for each request. A handler reads the body, asks the store, whose mutex
makes `check_and_mark` one step, and makes its answer of what the store said; between these parts
other handlers take their steps.

* `redeem_tasks_linearization` — what the requests see is explained by handlers one after the other
* `redeem_tasks_once` — of any number of requests that spend the same token, one is answered with
  200 and the others with 409
-/

namespace EatPass

open Infra

/-- What a spending request is for, if its nonce can be read. -/
def RedeemBody.spendKey (body : RedeemBody) : Option SpendKey :=
  body.readNonce.map fun nonce => (body.keyEpoch, nonce)

/-- The parts of `redeem`. -/
def redeemLocked (store : SpentStore) : Locked store.State RedeemBody (Reply Unit) where
  Ready := UInt32 × Bytes 32
  Taken := Outcome SpendError Unit
  prepare body :=
    match body.readNonce with
    | none => .inr (.err (.badRequest, "nonce must be 32-byte hex"))
    | some nonce => .inl (body.keyEpoch, nonce)
  access key spent := store.checkAndMark spent key.1 key.2
  finish result := result.mapErr fun e =>
    match e with
    | .doubleSpend => (.conflict, e.message)
    | .backend _ => (.serviceUnavailable, e.message)

theorem redeemLocked_run (store : SpentStore) (spent : store.State) (body : RedeemBody) :
    (redeemLocked store).run spent body = redeem store spent body := by
  unfold Locked.run redeemLocked redeem
  dsimp only
  generalize body.readNonce = read
  cases read with
  | none => rfl
  | some nonce => rfl

/-- What a request asks for, and its answer. -/
abbrev RedeemMark := Mark RedeemBody RedeemBody (Reply Unit)

/-- The requests of a redeemer in progress. -/
abbrev RedeemTasks (store : SpentStore) := (redeemLocked store).System

/-- **What the requests see is explained by handlers one after the other.** -/
theorem redeem_tasks_linearization {store : SpentStore} {spent : store.State}
    {h : List (Locked.Event RedeemBody × RedeemMark)} {s : RedeemTasks store}
    (ht : Trace (Locked.step _) (Locked.start _ spent) h s) :
    Linearization id (fun spent body => some (redeem store spent body)) spent (h.map Prod.snd)
      (points (h.map Prod.snd)) := by
  have hlin := Locked.linearization ht
  rwa [show (redeemLocked store).spec = fun spent body => some (redeem store spent body) from
    funext fun spent => funext fun body => congrArg some (redeemLocked_run store spent body)]
    at hlin

/-! ## Handlers one after the other -/

/-- The answer that a request for `c` was given. -/
def answerFor (c : SpendKey) (x : RedeemBody × Reply Unit) : Option (Reply Unit) :=
  if x.1.spendKey = some c then some x.2 else none

/-- A refusal because the token is spent. -/
def conflictReply : Reply Unit := .err (.conflict, SpendError.doubleSpend.message)

/-- A request for a token that is spent is refused, and one for a token that is not is granted. -/
theorem redeem_inMemory_reply {spent : InMemorySpentStore} {body : RedeemBody} {c : SpendKey}
    (hkey : body.spendKey = some c) :
    (redeem inMemorySpentStore spent body).2
      = if c ∈ spent.seen then conflictReply else .ok () := by
  obtain ⟨nonce, hn, rfl⟩ := Option.map_eq_some_iff.mp hkey
  by_cases hmem : (body.keyEpoch, nonce) ∈ spent.seen
  · rw [if_pos hmem]
    simp only [redeem, hn, inMemorySpentStore, InMemorySpentStore.checkAndMark, if_pos hmem]
    rfl
  · rw [if_neg hmem]
    simp only [redeem, hn, inMemorySpentStore, InMemorySpentStore.checkAndMark, if_neg hmem]
    rfl

/-- A request spends what it is for, and nothing else. -/
theorem redeem_inMemory_seen (spent : InMemorySpentStore) (body : RedeemBody) (c : SpendKey) :
    c ∈ (redeem inMemorySpentStore spent body).1.seen ↔
      c ∈ spent.seen ∨ body.spendKey = some c := by
  unfold redeem RedeemBody.spendKey
  cases hn : body.readNonce with
  | none => simp
  | some nonce =>
    simp only [InMemorySpentStore.seen_checkAndMark, Finset.mem_insert, Option.map_some,
      Option.some.injEq]
    rw [or_comm, eq_comm]

/-- What the answers say about the store. -/
structure AnswersSound (c : SpendKey) (h : List (RedeemBody × Reply Unit))
    (spent : InMemorySpentStore) : Prop where
  kinds : ∀ r ∈ h.filterMap (answerFor c), r = .ok () ∨ r = conflictReply
  seen : c ∈ spent.seen ↔ h.filterMap (answerFor c) ≠ []
  once : (h.filterMap (answerFor c)).count (.ok ()) = if c ∈ spent.seen then 1 else 0

theorem AnswersSound.step {c : SpendKey} {h : List (RedeemBody × Reply Unit)}
    {spent : InMemorySpentStore} (hinv : AnswersSound c h spent) (body : RedeemBody) :
    AnswersSound c (h ++ [(body, (redeem inMemorySpentStore spent body).2)])
      (redeem inMemorySpentStore spent body).1 := by
  obtain ⟨hkinds, hseen, honce⟩ := hinv
  have hmem := redeem_inMemory_seen spent body c
  by_cases hkey : body.spendKey = some c
  · have hreply : (redeem inMemorySpentStore spent body).2
        = if c ∈ spent.seen then conflictReply else .ok () := redeem_inMemory_reply hkey
    have hanswers :
        (h ++ [(body, (redeem inMemorySpentStore spent body).2)]).filterMap (answerFor c)
          = h.filterMap (answerFor c) ++ [if c ∈ spent.seen then conflictReply else .ok ()] := by
      rw [filterMap_snoc, answerFor, if_pos hkey, hreply]
      rfl
    have hnow : c ∈ (redeem inMemorySpentStore spent body).1.seen := hmem.mpr (.inr hkey)
    refine ⟨fun r hr => ?_, ?_, ?_⟩
    · rw [hanswers] at hr
      rcases List.mem_append.mp hr with hr | hr
      · exact hkinds r hr
      · rw [List.mem_singleton.mp hr]
        by_cases hc : c ∈ spent.seen
        · exact .inr (if_pos hc)
        · exact .inl (if_neg hc)
    · rw [hanswers]
      simp [hnow]
    · rw [hanswers, List.count_append, honce, if_pos hnow]
      by_cases hc : c ∈ spent.seen
      · simp only [if_pos hc]
        rfl
      · simp only [if_neg hc]
        rfl
  · have hanswers :
        (h ++ [(body, (redeem inMemorySpentStore spent body).2)]).filterMap (answerFor c)
          = h.filterMap (answerFor c) := by
      rw [filterMap_snoc, answerFor, if_neg hkey, Option.toList_none, List.append_nil]
    have hsame : c ∈ (redeem inMemorySpentStore spent body).1.seen ↔ c ∈ spent.seen := by
      rw [hmem, or_iff_left hkey]
    refine ⟨hanswers ▸ hkinds, ?_, ?_⟩
    · rw [hanswers, hsame, hseen]
    · simp only [hanswers, hsame, honce]

theorem redeem_answersSound (c : SpendKey) {h : List (RedeemBody × Reply Unit)}
    {spent : InMemorySpentStore}
    (ht : Trace (fun spent body => some (redeem inMemorySpentStore spent body)) .new h spent) :
    AnswersSound c h spent := by
  refine Trace.invariant (AnswersSound c) ⟨?_, ?_, ?_⟩ ?_ ht
  · intro r hr
    cases hr
  · simp [InMemorySpentStore.new]
  · simp [InMemorySpentStore.new]
  · intro h spent body spent' r _ hinv hstep
    obtain ⟨rfl, rfl⟩ := Prod.mk.inj (Option.some.inj hstep)
    exact hinv.step body

/-! ## Handlers side by side -/

/-- The answers that the requests for a token were given. -/
def answersFor (c : SpendKey) (ms : List RedeemMark) : List (Reply Unit) :=
  (replies id ms).filterMap fun x => answerFor c x.2

/--
**A token is spent once, however the requests overlap.** Whatever requests the redeemer is handling
at once: those that spend the same token are answered with 200 or 409, never two of them with 200,
and once all are answered, exactly one of them with 200.
-/
theorem redeem_tasks_once {h : List (Locked.Event RedeemBody × RedeemMark)}
    {s : RedeemTasks inMemorySpentStore}
    (ht : Trace (Locked.step _) (Locked.start _ InMemorySpentStore.new) h s) (c : SpendKey) :
    (∀ r ∈ answersFor c (h.map Prod.snd), r = .ok () ∨ r = conflictReply) ∧
      (answersFor c (h.map Prod.snd)).count (.ok ()) ≤ 1 ∧
      ((∀ t, s.tasks t = none) → (∃ x ∈ calls id (h.map Prod.snd), x.2.spendKey = some c) →
        (answersFor c (h.map Prod.snd)).count (.ok ()) = 1) := by
  have hlin := redeem_tasks_linearization ht
  obtain ⟨spent, hseq⟩ := hlin.legal
  have hsound := redeem_answersSound c hseq
  have hpart := subperm_filterMap (fun x => answerFor c x.2) hlin.consistent.replies_subperm
  have hanswers : (performed id (points (h.map Prod.snd))).filterMap (fun x => answerFor c x.2)
      = ((points (h.map Prod.snd)).map Prod.snd).filterMap (answerFor c) := by
    rw [performed, List.filterMap_map, List.filterMap_map]
    rfl
  rw [hanswers] at hpart
  refine ⟨fun r hr => hsound.kinds r (hpart.subset hr), ?_, fun hidle hasked => ?_⟩
  · refine (hpart.count_le _).trans ?_
    rw [hsound.once]
    split <;> omega
  · -- nothing is in flight, so all that was performed is answered
    have hprogress := Locked.progress ht
    have hflight : ∀ t, (s.tasks t).map Locked.Task.flight = none := fun t => by rw [hidle t]; rfl
    have hback := subperm_filterMap (fun x => answerFor c x.2) (hprogress.performed_subperm hflight)
    rw [hanswers] at hback
    obtain ⟨x, hx, hkey⟩ := hasked
    obtain ⟨y, hy, rfl⟩ := List.mem_map.mp ((hprogress.calls_subperm hflight).subset hx)
    have hseen : c ∈ spent.seen := by
      refine hsound.seen.mpr (List.ne_nil_of_mem (a := y.2.2) ?_)
      rw [← hanswers]
      exact List.mem_filterMap.mpr ⟨y, hy, if_pos hkey⟩
    have honce := hsound.once
    rw [if_pos hseen] at honce
    rw [← honce]
    exact (hpart.antisymm hback).count_eq _

/-- A token with a nonce of zeros. -/
def zeroSpend : RedeemBody := spendBody 1 ⟨List.replicate 32 0, List.length_replicate⟩

/-- Two requests for one token; the second gets to the store first. -/
def twoSpends : List (Locked.Event RedeemBody) :=
  [.call 0 zeroSpend, .call 1 zeroSpend, .access 1, .access 0, .finish 0, .finish 1]

theorem redeem_tasks_once_twoSpends :
    ∃ (h : List (Locked.Event RedeemBody × RedeemMark)) (s : RedeemTasks inMemorySpentStore),
      Trace (Locked.step _) (Locked.start _ InMemorySpentStore.new) h s ∧
      h.map Prod.fst = twoSpends ∧
      answersFor (1, ⟨List.replicate 32 0, List.length_replicate⟩) (h.map Prod.snd)
        = [conflictReply, .ok ()] ∧
      (answersFor (1, ⟨List.replicate 32 0, List.length_replicate⟩) (h.map Prod.snd)).count (.ok ())
        ≤ 1 := by
  obtain ⟨s, h, hrun, hevents, hanswers⟩ : ∃ s h, exec
      (Locked.step (redeemLocked inMemorySpentStore)) (Locked.start _ InMemorySpentStore.new)
        twoSpends = some (s, h) ∧ h.map Prod.fst = twoSpends ∧
      answersFor (1, ⟨List.replicate 32 0, List.length_replicate⟩) (h.map Prod.snd)
        = [conflictReply, .ok ()] :=
    ⟨_, _, rfl, rfl, by decide +kernel⟩
  have ht := Trace.of_exec hrun
  exact ⟨h, s, ht, hevents, hanswers, (redeem_tasks_once ht _).2.1⟩

end EatPass
