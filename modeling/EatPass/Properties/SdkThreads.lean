import EatPass.Infra.Matched
import EatPass.Mobile.Threads
import EatPass.Properties.SdkBatches

/-!
# The mobile SDK under threads

A host app may call one client from any number of threads. What they see is what calls one after
the other would have shown, and the secrets of a batch are used once.

* `EatPassClient.step_batches` — calls one after the other mint from each batch at most once
* `threads_mint_each_batch_once` — so do calls side by side
-/

namespace EatPass

open Infra

variable {C : Crypto}

/-- The random values of a `begin`. -/
def ClientCall.coins : ClientCall → Option (List (Bytes 32 × Bytes 32))
  | .begin coins => some coins
  | .finalize _ => none

/-- A response and the headers that were made with it. -/
def mintedBy : ClientCall × ClientReply → Option (SignResponse × List String)
  | (.finalize (.ok resp), .finalized (.ok headers)) => some (resp, headers)
  | _ => none

/-- The headers are the tokens of the batch with these random values, made with the response. -/
def MintedFrom (client : EatPassClient C) (m : SignResponse × List String)
    (coins : List (Bytes 32 × Bytes 32)) : Prop :=
  m.1.blindSigs.length = coins.length ∧
    m.2 = (List.zipWith (batchToken C client.pk client.challenge) coins m.1.blindSigs).map
      authorization

/-! ## Calls one after the other -/

/-- The headers so far are matched with the batches so far, less the one that is held. -/
def BatchesUsed (client : EatPassClient C) (h : ClientHistory) : Prop :=
  ∃ used, (used ++ (outstanding h).toList).Subperm (h.filterMap fun x => x.1.coins) ∧
    List.Forall₂ (MintedFrom client) (h.filterMap mintedBy) used

/-- A batch that is held was held before or is begun in the call. -/
theorem outstandingAfter_subperm (held : Option (List (Bytes 32 × Bytes 32))) (call : ClientCall) :
    (outstandingAfter held call).toList.Subperm (held.toList ++ call.coins.toList) := by
  cases call with
  | begin coins => exact (List.sublist_append_right held.toList [coins]).subperm
  | finalize json =>
    cases json with
    | error text => exact (List.sublist_append_left held.toList []).subperm
    | ok resp => exact List.nil_subperm

/-- A call that mints nothing. -/
theorem BatchesUsed.keep {client : EatPassClient C} {h : ClientHistory} {call : ClientCall}
    {reply : ClientReply} (hinv : BatchesUsed client h) (hmint : mintedBy (call, reply) = none) :
    BatchesUsed client (h ++ [(call, reply)]) := by
  obtain ⟨used, hused, hmatch⟩ := hinv
  refine ⟨used, ?_, ?_⟩
  · rw [filterMap_snoc, outstanding_snoc]
    have hheld := (List.subperm_append_left used).mpr
      (outstandingAfter_subperm (outstanding h) call)
    rw [← List.append_assoc] at hheld
    exact hheld.trans ((List.subperm_append_right _).mpr hused)
  · rwa [filterMap_snoc, hmint, Option.toList_none, List.append_nil]

/-- A call that mints uses the batch that is held. -/
theorem BatchesUsed.mint {client : EatPassClient C} {h : ClientHistory} {resp : SignResponse}
    {reply : ClientReply} {coins : List (Bytes 32 × Bytes 32)} {headers : List String}
    (hinv : BatchesUsed client h) (hheld : outstanding h = some coins)
    (hmint : mintedBy (.finalize (.ok resp), reply) = some (resp, headers))
    (hfrom : MintedFrom client (resp, headers) coins) :
    BatchesUsed client (h ++ [(.finalize (.ok resp), reply)]) := by
  obtain ⟨used, hused, hmatch⟩ := hinv
  rw [hheld] at hused
  refine ⟨used ++ [coins], ?_, ?_⟩
  · simpa [filterMap_snoc, outstandingAfter, ClientCall.coins] using hused
  · rw [filterMap_snoc, hmint]
    exact List.rel_append hmatch (.cons hfrom .nil)

theorem BatchesUsed.step {client s s' : EatPassClient C} {h : ClientHistory} {call : ClientCall}
    {reply : ClientReply} (hinv : BatchesUsed client h) (hs : client.Holds s (outstanding h))
    (hstep : s.step C call = some (s', reply)) : BatchesUsed client (h ++ [(call, reply)]) := by
  cases call with
  | begin coins => exact hinv.keep rfl
  | finalize json =>
    cases hstep
    cases json with
    | error text => exact hinv.keep rfl
    | ok resp =>
      rcases hheld : outstanding h with _ | coins
      · rw [hheld] at hs
        rw [hs.finalize_none]
        exact hinv.keep rfl
      · rw [hheld] at hs
        rw [hs.finalize_some, batchAnswer]
        by_cases hlen : resp.blindSigs.length = coins.length
        · rw [if_pos hlen]
          exact hinv.mint hheld rfl ⟨hlen, rfl⟩
        · rw [if_neg hlen]
          exact hinv.keep rfl

/-- **Calls one after the other mint from each batch at most once.** -/
theorem EatPassClient.step_batches {client s : EatPassClient C} {h : ClientHistory}
    (hnone : client.pending = none) (ht : Trace (EatPassClient.step C) client h s) :
    Matched (MintedFrom client) (h.filterMap mintedBy) (h.filterMap fun x => x.1.coins) := by
  have hinv : BatchesUsed client h := by
    refine Trace.invariant (fun h _ => BatchesUsed client h) ⟨[], ?_, .nil⟩ ?_ ht
    · exact List.nil_subperm
    · intro h s call s' reply hs hinv hstep
      exact hinv.step (pending_eq hnone hs) hstep
  obtain ⟨used, hused, hmatch⟩ := hinv
  exact ⟨used, (List.sublist_append_left _ _).subperm.trans hused, hmatch⟩

/-! ## Calls side by side -/

/-- What a thread asks for, and what it gets. -/
abbrev ClientMark := Mark ClientCall ClientCall ClientReply

/-- The headers that were returned, with their responses. -/
def mintedIn (ms : List ClientMark) : List (SignResponse × List String) :=
  (replies id ms).filterMap fun x => mintedBy x.2

/-- The batches that were begun. -/
def begunIn (ms : List ClientMark) : List (List (Bytes 32 × Bytes 32)) :=
  (calls id ms).filterMap fun x => x.2.coins

/--
**Threads share a client safely.** However the calls of any number of threads overlap, what they
see is what some order of the same calls, one after the other and respecting who had finished before
whom was started, would have shown. And whatever was minted was minted from batches that were begun,
each list of headers from a batch of its own: the secrets of a batch are never used twice.
-/
theorem threads_mint_each_batch_once {issuerPkJson : Except String IssuerPublicKey}
    {issuerName originInfo : String} {client : EatPassClient C}
    (hnew : EatPassClient.new C issuerPkJson issuerName originInfo = .ok client)
    {h : List (Locked.Event ClientCall × ClientMark)}
    {s : ClientThreads C client.pk client.challenge}
    (ht : Trace (Locked.step _) (Locked.start _ client.pending) h s) :
    (∃ q, Linearization id (EatPassClient.step C) client (h.map Prod.snd) q) ∧
      Matched (MintedFrom client) (mintedIn (h.map Prod.snd)) (begunIn (h.map Prod.snd)) := by
  have hnone : client.pending = none := by
    cases issuerPkJson with
    | error e => cases hnew
    | ok pk => cases hnew; rfl
  have hlin := EatPassClient.threads_linearization ht
  refine ⟨⟨_, hlin⟩, ?_⟩
  obtain ⟨s', hseq⟩ := hlin.legal
  generalize points (h.map Prod.snd) = q at hlin hseq
  have hmatch := EatPassClient.step_batches hnone hseq
  -- what was returned is a part of the sequential run, and so is what was asked for
  have hminted := subperm_filterMap (fun x => mintedBy x.2) hlin.consistent.replies_subperm
  have hbegun := subperm_filterMap (fun x => x.2.coins) hlin.consistent.performed_subperm
  simp only [performed, List.filterMap_map, List.map_map] at hminted hbegun hmatch
  exact (hmatch.mono_left hminted).mono_right hbegun

/-- One thread begins, and before it has returned two others finalise with the answer at once. -/
def twoFinalizes : List (Locked.Event ClientCall) :=
  [.call 0 (.begin [coinsOf 1]), .access 0, .call 1 (.finalize (.ok (sampleAnswer 1))),
    .call 2 (.finalize (.ok (sampleAnswer 1))), .access 2, .access 1, .finish 1, .finish 2,
    .finish 0]

/-- One of the two gets the header. -/
theorem threads_mint_each_batch_once_twoFinalizes :
    ∃ (h : List (Locked.Event ClientCall × ClientMark))
      (s : ClientThreads Crypto.sample sampleSdk.pk sampleSdk.challenge),
      h.map Prod.fst = twoFinalizes ∧ (mintedIn (h.map Prod.snd)).length = 1 ∧
      Trace (Locked.step _) (Locked.start _ sampleSdk.pending) h s ∧
      Matched (MintedFrom sampleSdk) (mintedIn (h.map Prod.snd)) (begunIn (h.map Prod.snd)) := by
  obtain ⟨s, h, hrun, hevents, hminted⟩ : ∃ s h, exec
      (Locked.step (EatPassClient.locked Crypto.sample sampleSdk.pk sampleSdk.challenge))
      (Locked.start _ sampleSdk.pending) twoFinalizes = some (s, h) ∧
      h.map Prod.fst = twoFinalizes ∧ (mintedIn (h.map Prod.snd)).length = 1 :=
    ⟨_, _, rfl, rfl, rfl⟩
  have ht := Trace.of_exec hrun
  have hnew : EatPassClient.new Crypto.sample (.ok sdkIssuer.public) "issuer.example"
      "origin.example" = .ok sampleSdk := rfl
  exact ⟨h, s, hevents, hminted, ht, (threads_mint_each_batch_once hnew ht).2⟩

end EatPass
