import Mathlib.Data.List.Nodup
import EatPass.Mobile.Ffi
import EatPass.Properties.SdkThreads

/-!
# Sessions of the stdio helper

One helper serves many sessions, in one stream of lines. A session is one client, and the lines of
the others do not touch it.

* `ffi_alive_iff` — which ids have a client
* `ffi_ids` — ids are not handed out twice, and a line is refused exactly when its id is not alive
* `ffi_session` — the lines of a session are answered by its client alone
* `ffi_headers` — each header is the first one of a batch of its own
-/

namespace EatPass

open Infra

variable {C : Crypto}

/-! ## Ids -/

/-- The id that an answer hands out. -/
def handedOut : Option FfiReply → Option UInt64
  | some (.ok (.id id)) => some id
  | _ => none

/-- The ids handed out so far, oldest first. -/
def idsOf (h : FfiHistory) : List UInt64 := h.filterMap fun x => handedOut x.2

def FfiAction.isNew : FfiAction C → Bool
  | .new _ => true
  | _ => false

/-- The id that is dropped. -/
@[simp] def FfiAction.dropped : FfiAction C → Option UInt64
  | .drop id => some id
  | _ => none

/-- The number of `new` lines so far. -/
def newCount (C : Crypto) (h : FfiHistory) : Nat := h.countP fun x => (x.1.action C).isNew

/-- The id was handed out and has not been dropped since. -/
def Alive (C : Crypto) (id : UInt64) (h : FfiHistory) : Prop :=
  ∃ before x after, h = before ++ x :: after ∧ handedOut x.2 = some id ∧
    ∀ y ∈ after, (y.1.action C).dropped ≠ some id

theorem not_alive_nil (id : UInt64) : ¬ Alive C id [] := by
  rintro ⟨before, x, after, hsplit, -⟩
  exact absurd hsplit (by simp)

theorem alive_snoc {id : UInt64} {h : FfiHistory} {x : FfiInput × Option FfiReply} :
    Alive C id (h ++ [x]) ↔
      handedOut x.2 = some id ∨ Alive C id h ∧ (x.1.action C).dropped ≠ some id := by
  constructor
  · rintro ⟨before, y, after, hsplit, hid, hkeep⟩
    rcases List.eq_nil_or_concat after with rfl | ⟨after', z, rfl⟩
    · obtain ⟨-, hx⟩ := List.append_inj' hsplit rfl
      cases hx
      exact .inl hid
    · rw [List.concat_eq_append, ← List.cons_append, ← List.append_assoc] at hsplit
      obtain ⟨rfl, hx⟩ := List.append_inj' hsplit rfl
      cases hx
      refine .inr ⟨⟨before, y, after', rfl, hid, fun w hw => ?_⟩, ?_⟩
      · exact hkeep w (by simp [hw])
      · exact hkeep x (by simp)
  · rintro (hid | ⟨⟨before, y, after, rfl, hid, hkeep⟩, hx⟩)
    · exact ⟨h, x, [], rfl, hid, by simp⟩
    · refine ⟨before, y, after ++ [x], by simp, hid, fun w hw => ?_⟩
      rcases List.mem_append.mp hw with hw | hw
      · exact hkeep w hw
      · rw [List.mem_singleton.mp hw]
        exact hx

/-- An answer without a result hands out no id. -/
theorem handedOut_eq_none {out : Option FfiReply} (h : ∀ r, out ≠ some (.ok r)) :
    handedOut out = none := by
  unfold handedOut
  split
  · next id => exact absurd rfl (h (.id id))
  · rfl

theorem handedOut_ofClient (reply : ClientReply) : handedOut (some (.ofClient reply)) = none := by
  rcases reply with result | (headers | e | _) <;> rfl

/-- **The ids with a client are those that are alive.** -/
theorem ffi_alive_iff {h : FfiHistory} {s : FfiState C}
    (ht : Trace (FfiState.step C) (.start C) h s) (id : UInt64) :
    s.clients id ≠ none ↔ Alive C id h := by
  refine Trace.invariant (fun h s => s.clients id ≠ none ↔ Alive C id h) ?_ ?_ ht
  · exact ⟨fun hne => absurd rfl hne, fun halive => absurd halive (not_alive_nil id)⟩
  · intro h s input s' out _ ih hstep
    rw [alive_snoc, ← ih]
    cases FfiState.step_cases hstep with
    | quiet action reply same =>
      rw [same, handedOut_eq_none reply, action]
      simp
    | failed client action reply state =>
      rw [state, handedOut_eq_none reply, action]
      simp
    | opened client action reply state =>
      rw [state, reply, action]
      by_cases hid : id = s.nextId
      · subst hid
        simp [handedOut]
      · simp [handedOut, hid, Ne.symm hid]
    | unknown i k action absent reply same =>
      rw [same, reply, action]
      simp [handedOut, unknownSession]
    | called i k client client' r action found step reply state =>
      rw [state, reply, action, handedOut_ofClient]
      by_cases hid : id = i
      · subst hid
        simp [found]
      · simp [hid]
    | dropped i action reply state =>
      rw [state, reply, action]
      by_cases hid : id = i
      · subst hid
        simp [handedOut]
      · simp [handedOut, hid, Ne.symm hid]

/-- The ids so far are the values of the counter at some of the `new` lines. -/
structure IdsCounted (C : Crypto) (h : FfiHistory) (nextId : UInt64) : Prop where
  next : nextId = UInt64.ofNat (1 + newCount C h)
  ids : ∃ at_ : List Nat, at_.Pairwise (· < ·) ∧ (∀ j ∈ at_, j < newCount C h) ∧
    idsOf h = at_.map fun j => UInt64.ofNat (1 + j)

theorem newCount_snoc (h : FfiHistory) (x : FfiInput × Option FfiReply) :
    newCount C (h ++ [x]) = newCount C h + if (x.1.action C).isNew then 1 else 0 := by
  rw [newCount, List.countP_append, List.countP_singleton]
  rfl

theorem idsOf_snoc (h : FfiHistory) (x : FfiInput × Option FfiReply) :
    idsOf (h ++ [x]) = idsOf h ++ (handedOut x.2).toList :=
  filterMap_snoc _ _ _

theorem ofNat_succ (n : Nat) : UInt64.ofNat (1 + n) + 1 = UInt64.ofNat (1 + (n + 1)) := by
  rw [← Nat.add_assoc, UInt64.ofNat_add (1 + n) 1]
  rfl

/-- A line that is not a `new`. -/
theorem IdsCounted.keep {h : FfiHistory} {nextId : UInt64} {x : FfiInput × Option FfiReply}
    (hinv : IdsCounted C h nextId) (hnew : (x.1.action C).isNew = false)
    (hout : handedOut x.2 = none) : IdsCounted C (h ++ [x]) nextId := by
  obtain ⟨hnext, hids⟩ := hinv
  have hcount : newCount C (h ++ [x]) = newCount C h := by
    rw [newCount_snoc, hnew]
    rfl
  have hsame : idsOf (h ++ [x]) = idsOf h := by
    rw [idsOf_snoc, hout]
    exact List.append_nil _
  exact ⟨hcount ▸ hnext, by rw [hcount, hsame]; exact hids⟩

theorem ids_counted {h : FfiHistory} {s : FfiState C}
    (ht : Trace (FfiState.step C) (.start C) h s) : IdsCounted C h s.nextId := by
  refine Trace.invariant (fun h s => IdsCounted C h s.nextId) ⟨rfl, [], .nil, by simp, rfl⟩ ?_ ht
  intro h s input s' out _ hinv hstep
  cases FfiState.step_cases hstep with
  | quiet action reply same =>
    rw [same]
    exact hinv.keep (by rw [action]; rfl) (handedOut_eq_none reply)
  | failed client action reply state =>
    obtain ⟨hnext, at_, hsorted, hlt, hids⟩ := hinv
    have hcount : newCount C (h ++ [(input, out)]) = newCount C h + 1 := by
      rw [newCount_snoc, action]
      rfl
    refine ⟨?_, at_, hsorted, fun j hj => ?_, ?_⟩
    · rw [state, hcount, ← ofNat_succ, ← hnext]
    · rw [hcount]
      exact Nat.lt_succ_of_lt (hlt j hj)
    · rw [idsOf_snoc, handedOut_eq_none reply, hids]
      exact List.append_nil _
  | opened client action reply state =>
    obtain ⟨hnext, at_, hsorted, hlt, hids⟩ := hinv
    have hcount : newCount C (h ++ [(input, out)]) = newCount C h + 1 := by
      rw [newCount_snoc, action]
      rfl
    refine ⟨?_, at_ ++ [newCount C h], ?_, fun j hj => ?_, ?_⟩
    · rw [state, hcount, ← ofNat_succ, ← hnext]
    · rw [List.pairwise_append]
      refine ⟨hsorted, List.pairwise_singleton _ _, fun j hj k hk => ?_⟩
      rw [List.mem_singleton.mp hk]
      exact hlt j hj
    · rw [hcount]
      rcases List.mem_append.mp hj with hj | hj
      · exact Nat.lt_succ_of_lt (hlt j hj)
      · rw [List.mem_singleton.mp hj]
        exact Nat.lt_succ_self _
    · rw [idsOf_snoc, reply, hids, List.map_append, hnext]
      rfl
  | unknown i k action absent reply same =>
    rw [same, reply]
    exact hinv.keep (by rw [action]; rfl) rfl
  | called i k client client' r action found step reply state =>
    rw [state, reply]
    exact hinv.keep (by rw [action]; rfl) (handedOut_ofClient r)
  | dropped i action reply state =>
    rw [state, reply]
    exact hinv.keep (by rw [action]; rfl) rfl

/-- Ids are counted up from 1, so 2^64 of them are different. -/
theorem IdsCounted.nodup {h : FfiHistory} {nextId : UInt64} (hinv : IdsCounted C h nextId)
    (hcount : newCount C h ≤ 2 ^ 64) : (idsOf h).Nodup := by
  obtain ⟨-, at_, hsorted, hlt, hids⟩ := hinv
  rw [hids]
  refine List.Nodup.map_on ?_ (hsorted.imp Nat.ne_of_lt)
  intro i hi j hj heq
  have hi := hlt i hi
  have hj := hlt j hj
  have hmod := congrArg UInt64.toNat heq
  simp only [UInt64.toNat_ofNat'] at hmod
  omega

/--
**An id belongs to one session.** In a run with at most 2^64 `new` lines no id is handed out twice.
A line that calls a session is answered by its client if the id was handed out and not dropped
since; otherwise it is refused, and changes nothing.
-/
theorem ffi_ids {h : FfiHistory} {s : FfiState C} (ht : Trace (FfiState.step C) (.start C) h s) :
    (newCount C h ≤ 2 ^ 64 → (idsOf h).Nodup) ∧
      ∀ (input : FfiInput) (id : UInt64) (k : ClientCall) (s' : FfiState C)
        (out : Option FfiReply),
        input.action C = .call id k →
        s.step C input = some (s', out) →
        (Alive C id h → ∃ client client' reply, s.clients id = some client ∧
          client.step C k = some (client', reply) ∧ out = some (.ofClient reply)) ∧
        (¬ Alive C id h → out = some unknownSession ∧ s' = s) := by
  refine ⟨(ids_counted ht).nodup, fun input id k s' out haction hstep => ?_⟩
  rw [← ffi_alive_iff ht]
  cases FfiState.step_cases hstep with
  | quiet action => rw [haction] at action; cases action
  | failed client action => rw [haction] at action; cases action
  | opened client action => rw [haction] at action; cases action
  | dropped i action => rw [haction] at action; cases action
  | unknown i k' action absent reply same =>
    rw [haction] at action
    cases action
    exact ⟨fun hne => absurd absent hne, fun _ => ⟨reply, same⟩⟩
  | called i k' client client' r action found step reply state =>
    rw [haction] at action
    cases action
    refine ⟨fun _ => ⟨client, client', r, found, step, reply⟩, fun hne => absurd ?_ hne⟩
    simp [found]

/-! ## One session -/

/-- The calls on a session, with their answers. -/
def callOn (C : Crypto) (id : UInt64) (x : FfiInput × Option FfiReply) :
    Option (ClientCall × Option FfiReply) :=
  match x.1.action C with
  | .call i k => if i = id then some (k, x.2) else none
  | _ => none

def sessionCalls (C : Crypto) (id : UInt64) (h : FfiHistory) :
    List (ClientCall × Option FfiReply) :=
  h.filterMap (callOn C id)

/-- The line ends the session: it drops the id, or the id is handed out once more. -/
def EndsSession (C : Crypto) (id : UInt64) (x : FfiInput × Option FfiReply) : Prop :=
  (x.1.action C).dropped = some id ∨ handedOut x.2 = some id

instance (id : UInt64) (x : FfiInput × Option FfiReply) : Decidable (EndsSession C id x) :=
  inferInstanceAs (Decidable (_ ∨ _))

/-- **The lines of a session are calls on its client.** -/
theorem session_run {id : UInt64} {client : EatPassClient C} {s₁ s : FfiState C} {h : FfiHistory}
    (hclient : s₁.clients id = some client) (ht : Trace (FfiState.step C) s₁ h s)
    (hopen : ∀ x ∈ h, ¬ EndsSession C id x) :
    ∃ k last, Trace (EatPassClient.step C) client k last ∧ s.clients id = some last ∧
      sessionCalls C id h = k.map fun x => (x.1, some (.ofClient x.2)) := by
  induction ht with
  | init => exact ⟨[], client, .init, hclient, rfl⟩
  | @snoc h s s' input out _ hstep ih =>
    obtain ⟨k, last, hk, hlast, hcalls⟩ := ih fun x hx => hopen x (List.mem_append_left _ hx)
    have hends : ¬ EndsSession C id (input, out) :=
      hopen _ (List.mem_append_right _ (List.mem_singleton_self _))
    have hkeep : callOn C id (input, out) = none → s'.clients id = s.clients id →
        ∃ k last, Trace (EatPassClient.step C) client k last ∧ s'.clients id = some last ∧
          sessionCalls C id (h ++ [(input, out)])
            = k.map fun x => (x.1, some (.ofClient x.2)) := by
      intro hnone hsame
      refine ⟨k, last, hk, hsame.trans hlast, ?_⟩
      rw [sessionCalls, filterMap_snoc, hnone]
      exact (List.append_nil _).trans hcalls
    cases FfiState.step_cases hstep with
    | quiet action reply same => exact hkeep (by rw [callOn, action]) (by rw [same])
    | failed made action reply state => exact hkeep (by rw [callOn, action]) (by rw [state])
    | opened made action reply state =>
      -- the id that is handed out is another one
      have hne : id ≠ s.nextId := fun heq => hends (.inr (by rw [reply, heq]; rfl))
      exact hkeep (by rw [callOn, action]) (by rw [state]; exact Function.update_of_ne hne _ _)
    | unknown i k' action absent reply same =>
      have hne : i ≠ id := by
        rintro rfl
        rw [hlast] at absent
        cases absent
      exact hkeep (by rw [callOn, action]; exact if_neg hne) (by rw [same])
    | called i k' c c' r action found step reply state =>
      by_cases hi : i = id
      · -- a call on the session
        subst hi
        rw [hlast] at found
        cases found
        refine ⟨k ++ [(k', r)], c', hk.snoc step, by rw [state]; exact Function.update_self .., ?_⟩
        have hcall : callOn C i (input, out) = some (k', out) := by
          rw [callOn, action]
          exact if_pos rfl
        rw [sessionCalls, filterMap_snoc, hcall, List.map_append, ← hcalls, reply]
        rfl
      · refine hkeep (by rw [callOn, action]; exact if_neg hi) ?_
        rw [state]
        exact Function.update_of_ne (Ne.symm hi) _ _
    | dropped i action reply state =>
      have hne : id ≠ i := fun heq => hends (.inl (by rw [action, heq]; rfl))
      exact hkeep (by rw [callOn, action]) (by rw [state]; exact Function.update_of_ne hne _ _)

/-- Only a `new` that succeeds hands out an id. -/
theorem client_of_handedOut {s s' : FfiState C} {input : FfiInput} {out : Option FfiReply}
    {id : UInt64} (hstep : s.step C input = some (s', out)) (hid : handedOut out = some id) :
    ∃ client, input.action C = .new (.ok client) ∧ s'.clients id = some client := by
  cases FfiState.step_cases hstep with
  | quiet action reply same => rw [handedOut_eq_none reply] at hid; cases hid
  | failed made action reply state => rw [handedOut_eq_none reply] at hid; cases hid
  | opened client action reply state =>
    rw [reply] at hid
    cases hid
    exact ⟨client, action, by rw [state]; exact Function.update_self ..⟩
  | unknown i k action absent reply same => rw [reply] at hid; cases hid
  | called i k c c' r action found step reply state =>
    rw [reply, handedOut_ofClient] at hid
    cases hid
  | dropped i action reply state => rw [reply] at hid; cases hid

/--
**A session is one client.** Whatever other lines the helper reads, the calls on a session since its
id was handed out, with their answers, are calls on the client that its `new` made.
-/
theorem ffi_session {before after : FfiHistory} {x : FfiInput × Option FfiReply} {id : UInt64}
    {s : FfiState C} (ht : Trace (FfiState.step C) (.start C) (before ++ x :: after) s)
    (hid : handedOut x.2 = some id) (hopen : ∀ y ∈ after, ¬ EndsSession C id y) :
    ∃ client k last, x.1.action C = .new (.ok client) ∧
      Trace (EatPassClient.step C) client k last ∧ s.clients id = some last ∧
      sessionCalls C id after = k.map fun y => (y.1, some (.ofClient y.2)) := by
  obtain ⟨s₁, s₂, -, hstep, hafter⟩ := Trace.split_iff.mp ht
  obtain ⟨client, hmade, hclient⟩ := client_of_handedOut hstep hid
  obtain ⟨k, last, hk, hlast, hcalls⟩ := session_run hclient hafter hopen
  exact ⟨client, k, last, hmade, hk, hlast, hcalls⟩

/-! ## Headers -/

/-- A response and the header that was answered to it. -/
def headerBy : ClientCall × Option FfiReply → Option (SignResponse × String)
  | (.finalize (.ok resp), some (.ok (.authorizationHeader header))) => some (resp, header)
  | _ => none

/-- The header is the one of the first token of the batch. -/
def FirstHeader (client : EatPassClient C) (m : SignResponse × String)
    (coins : List (Bytes 32 × Bytes 32)) : Prop :=
  m.1.blindSigs.length = coins.length ∧ ∃ pair ∈ coins.head?, ∃ bsig ∈ m.1.blindSigs.head?,
    m.2 = authorization (batchToken C client.pk client.challenge pair bsig)

theorem headerBy_ofClient (x : ClientCall × ClientReply) :
    headerBy (x.1, some (.ofClient x.2))
      = (mintedBy x).map fun m => (m.1, m.2.headD "") := by
  rcases x with ⟨coins | (e | resp), result | (headers | e | _)⟩ <;> rfl

/-- A `begin` line begins at least one token. -/
theorem action_begin {input : FfiInput} {id : UInt64} {coins : List (Bytes 32 × Bytes 32)}
    (h : input.action C = .call id (.begin coins)) : coins ≠ [] := by
  have hpos : ∀ count : UInt32, (max count 1).toNat ≠ 0 := by
    intro count
    show (if count ≤ 1 then (1 : UInt32) else count).toNat ≠ 0
    by_cases hle : count ≤ 1
    · rw [if_pos hle]
      decide
    · rw [if_neg hle]
      have hlt := UInt32.lt_iff_toNat_lt.mp (UInt32.not_le.mp hle)
      exact Nat.ne_of_gt (Nat.zero_lt_of_lt hlt)
  cases input with
  | failed e => cases h
  | blank => cases h
  | invalid e => cases h
  | line l random =>
    simp only [FfiInput.action] at h
    split at h <;> cases h
    intro hnil
    have hlen := congrArg List.length hnil
    rw [List.length_map, List.length_range] at hlen
    exact hpos l.count hlen

theorem coins_ne_nil {id : UInt64} {h : FfiHistory} {y : ClientCall × Option FfiReply}
    {coins : List (Bytes 32 × Bytes 32)} (hy : y ∈ sessionCalls C id h)
    (hcoins : y.1.coins = some coins) : coins ≠ [] := by
  obtain ⟨x, -, hcall⟩ := List.mem_filterMap.mp hy
  unfold callOn at hcall
  split at hcall
  · next i k haction =>
    split at hcall
    · cases hcall
      cases k with
      | begin coins' =>
        cases hcoins
        exact action_begin haction
      | finalize json => cases hcoins
    · cases hcall
  · cases hcall

/-- A client is made without a batch. -/
theorem pending_of_new {input : FfiInput} {client : EatPassClient C}
    (h : input.action C = .new (.ok client)) : client.pending = none := by
  cases input with
  | failed e => cases h
  | blank => cases h
  | invalid e => cases h
  | line l random =>
    simp only [FfiInput.action] at h
    split at h
    · have hmade := FfiAction.new.inj h
      cases hjson : l.issuerPkJson with
      | error e => rw [hjson] at hmade; cases hmade
      | ok pk => rw [hjson] at hmade; cases hmade; rfl
    all_goals cases h

/-- The headers of a batch that is not empty begin with the one of its first token. -/
theorem MintedFrom.first {client : EatPassClient C} {m : SignResponse × List String}
    {coins : List (Bytes 32 × Bytes 32)} (hne : coins ≠ []) (h : MintedFrom client m coins) :
    FirstHeader client (m.1, m.2.headD "") coins := by
  obtain ⟨hlen, hheaders⟩ := h
  refine ⟨hlen, ?_⟩
  rcases coins with _ | ⟨pair, rest⟩
  · exact absurd rfl hne
  · rcases hsigs : m.1.blindSigs with _ | ⟨bsig, sigs⟩
    · rw [hsigs] at hlen
      cases hlen
    · refine ⟨pair, rfl, bsig, rfl, ?_⟩
      rw [hheaders, hsigs]
      rfl

/--
**Each header is the first one of a batch of its own.** However many tokens a session's `begin`
lines ask for, a `finalize` that succeeds answers with the header of the first token of a batch;
there is always one, and no batch gives two.
-/
theorem ffi_headers {before after : FfiHistory} {x : FfiInput × Option FfiReply} {id : UInt64}
    {s : FfiState C} (ht : Trace (FfiState.step C) (.start C) (before ++ x :: after) s)
    (hid : handedOut x.2 = some id) (hopen : ∀ y ∈ after, ¬ EndsSession C id y) :
    ∃ client, x.1.action C = .new (.ok client) ∧
      Matched (FirstHeader client) ((sessionCalls C id after).filterMap headerBy)
        ((sessionCalls C id after).filterMap fun y => y.1.coins) := by
  obtain ⟨s₁, s₂, -, hstep, hafter⟩ := Trace.split_iff.mp ht
  obtain ⟨client, hmade, hclient⟩ := client_of_handedOut hstep hid
  obtain ⟨k, last, hk, -, hcalls⟩ := session_run hclient hafter hopen
  refine ⟨client, hmade, ?_⟩
  have hbegun : ∀ coins ∈ (sessionCalls C id after).filterMap fun y => y.1.coins, coins ≠ [] := by
    intro coins hcoins
    obtain ⟨y, hy, hcall⟩ := List.mem_filterMap.mp hcoins
    exact coins_ne_nil hy hcall
  rw [hcalls] at hbegun ⊢
  have hmatch := EatPassClient.step_batches (pending_of_new hmade) hk
  have hheaders : (k.map fun y => (y.1, some (FfiReply.ofClient y.2))).filterMap headerBy
      = (k.filterMap mintedBy).map fun m => (m.1, m.2.headD "") := by
    rw [List.filterMap_map, List.map_filterMap]
    exact congrArg (k.filterMap ·) (funext headerBy_ofClient)
  have hbatches : (k.map fun y => (y.1, some (FfiReply.ofClient y.2))).filterMap
      (fun y => y.1.coins) = k.filterMap fun y => y.1.coins := List.filterMap_map
  rw [hbatches] at hbegun ⊢
  rw [hheaders]
  exact .map_left (hmatch.imp fun m coins hcoins hfrom => hfrom.first (hbegun coins hcoins))

/-! ## A concrete run -/

/-- A line for the concrete issuer. -/
def sampleLine (op : String) (id : UInt64) (count : UInt32) : FfiLine where
  op := op
  id := id
  issuerPkJson := .ok sdkIssuer.public
  issuerName := "issuer.example"
  originInfo := "origin.example"
  count := count
  signResponseJson := .ok (sampleAnswer 1)

/-- Two sessions, and a `new` between them that fails. The second session is dropped and then called
once more. -/
def twoSessions : List FfiInput :=
  [.line (sampleLine "new" 0 0) fun _ => coinsOf 1,
    .line { sampleLine "new" 0 0 with issuerPkJson := .error "EOF" } fun _ => coinsOf 1,
    .line (sampleLine "new" 0 0) fun _ => coinsOf 1,
    .line (sampleLine "begin" 1 0) fun _ => coinsOf 1,
    .line (sampleLine "begin" 3 2) fun _ => coinsOf 2,
    .line (sampleLine "finalize" 1 0) fun _ => coinsOf 1,
    .line (sampleLine "drop" 3 0) fun _ => coinsOf 1]

/-- The first session is called twice: it has one batch and gets one header. -/
theorem twoSessions_run : ∃ s x after,
    exec (FfiState.step Crypto.sample) (.start Crypto.sample) twoSessions = some (s, x :: after) ∧
      handedOut x.2 = some 1 ∧ idsOf (x :: after) = [1, 3] ∧
      newCount Crypto.sample (x :: after) = 3 ∧
      (∀ y ∈ after, ¬ EndsSession Crypto.sample 1 y) ∧
      (sessionCalls Crypto.sample 1 after).length = 2 ∧
      ((sessionCalls Crypto.sample 1 after).filterMap headerBy).length = 1 ∧
      s.clients 3 = none :=
  ⟨_, _, _, rfl, rfl, rfl, rfl, by decide, rfl, rfl, rfl⟩

theorem ffi_ids_twoSessions : ∃ (h : FfiHistory) (s : FfiState Crypto.sample),
    exec (FfiState.step Crypto.sample) (.start Crypto.sample) twoSessions = some (s, h) ∧
      idsOf h = [1, 3] ∧ (idsOf h).Nodup ∧
      s.step Crypto.sample (.line (sampleLine "begin" 3 2) fun _ => coinsOf 2)
        = some (s, some unknownSession) := by
  obtain ⟨s, x, after, hexec, -, hids, hcount, -, -, -, hnone⟩ := twoSessions_run
  obtain ⟨hnodup, hcalls⟩ := ffi_ids (Trace.of_exec hexec)
  have hdead : ¬ Alive Crypto.sample 3 (x :: after) := fun halive =>
    (ffi_alive_iff (Trace.of_exec hexec) 3).mpr halive hnone
  obtain ⟨hout, hsame⟩ := (hcalls (.line (sampleLine "begin" 3 2) fun _ => coinsOf 2) 3 _ _ _ rfl
    rfl).2 hdead
  refine ⟨x :: after, s, hexec, hids, hnodup (by rw [hcount]; decide), ?_⟩
  exact congrArg some (Prod.ext hsame hout)

theorem ffi_session_twoSessions : ∃ (s : FfiState Crypto.sample) (x : FfiInput × Option FfiReply)
    (after : FfiHistory) (client last : EatPassClient Crypto.sample) (k : ClientHistory),
    exec (FfiState.step Crypto.sample) (.start Crypto.sample) twoSessions = some (s, x :: after) ∧
      x.1.action Crypto.sample = .new (.ok client) ∧
      Trace (EatPassClient.step Crypto.sample) client k last ∧ s.clients 1 = some last ∧
      k.length = 2 ∧
      sessionCalls Crypto.sample 1 after = k.map fun y => (y.1, some (.ofClient y.2)) := by
  obtain ⟨s, x, after, hexec, hid, -, -, hopen, htwice, -, -⟩ := twoSessions_run
  obtain ⟨client, k, last, hmade, hk, hlast, hcalls⟩ :=
    @ffi_session _ [] _ _ _ _ (Trace.of_exec hexec) hid hopen
  refine ⟨s, x, after, client, last, k, hexec, hmade, hk, hlast, ?_, hcalls⟩
  rw [← htwice, hcalls, List.length_map]

theorem ffi_headers_twoSessions : ∃ (s : FfiState Crypto.sample) (x : FfiInput × Option FfiReply)
    (after : FfiHistory) (client : EatPassClient Crypto.sample),
    exec (FfiState.step Crypto.sample) (.start Crypto.sample) twoSessions = some (s, x :: after) ∧
      x.1.action Crypto.sample = .new (.ok client) ∧
      ((sessionCalls Crypto.sample 1 after).filterMap headerBy).length = 1 ∧
      Matched (FirstHeader client) ((sessionCalls Crypto.sample 1 after).filterMap headerBy)
        ((sessionCalls Crypto.sample 1 after).filterMap fun y => y.1.coins) := by
  obtain ⟨s, x, after, hexec, hid, -, -, hopen, -, hone, -⟩ := twoSessions_run
  obtain ⟨client, hmade, hmatch⟩ := @ffi_headers _ [] _ _ _ _ (Trace.of_exec hexec) hid hopen
  exact ⟨s, x, after, client, hexec, hmade, hone, hmatch⟩

end EatPass
