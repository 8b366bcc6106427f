import EatPass.Core.Spend
import EatPass.Infra.Entries
import EatPass.Properties.Quota

/-!
# Housekeeping

The in-memory spent set and the in-memory limiter grow until they are pruned. What pruning makes
them forget, over any run of calls and prunes:

* `spent_since_prune` — a check is refused exactly for what was checked since the last prune above
  its epoch, and a run that never goes back below a prune is answered as without the prunes
* `quota_since_prune` — a batch is accepted exactly if it fits under the cap with what was accepted
  since the last prune above its epoch, so each such prune hands out one more budget
-/

namespace EatPass

open Infra

/-! ## The spent set -/

/-- A call on the spent set. -/
inductive SpentEvent where
  | check (keyEpoch : UInt32) (nonce : Bytes 32)
  | prune (keepFrom : UInt32)

/-- A call, and the answer of a check. -/
def InMemorySpentStore.step (s : InMemorySpentStore) :
    SpentEvent → Option (InMemorySpentStore × Option (Outcome SpendError Unit))
  | .check keyEpoch nonce =>
    let (s, result) := s.checkAndMark keyEpoch nonce
    some (s, some result)
  | .prune keepFrom => some (s.pruneEpochsBefore keepFrom, none)

/-- The calls so far and their answers, oldest first. -/
abbrev SpentHistory := List (SpentEvent × Option (Outcome SpendError Unit))

/-- What is checked. -/
def SpentEvent.key : SpentEvent → Option SpendKey
  | .check keyEpoch nonce => some (keyEpoch, nonce)
  | .prune _ => none

/-- The call drops the records of the epoch. -/
def SpentEvent.Retires (epoch : UInt32) : SpentEvent → Prop
  | .check _ _ => False
  | .prune keepFrom => epoch < keepFrom

instance (epoch : UInt32) : (e : SpentEvent) → Decidable (e.Retires epoch)
  | .check _ _ => inferInstanceAs (Decidable False)
  | .prune keepFrom => inferInstanceAs (Decidable (epoch < keepFrom))

/-- The pair was checked, and its epoch was not retired since. -/
def CheckedSince (key : SpendKey) (h : SpentHistory) : Prop :=
  ∃ before x after, h = before ++ x :: after ∧ x.1.key = some key ∧
    ∀ y ∈ after, ¬ y.1.Retires key.1

/-- What a call does to the record of a pair. -/
def SpentEvent.effect (key : SpendKey) (x : SpentEvent × Option (Outcome SpendError Unit)) :
    Effect Unit :=
  if x.1.key = some key then .apply () else if x.1.Retires key.1 then .clear else .keep

theorem SpentEvent.effect_eq_apply {key : SpendKey}
    {x : SpentEvent × Option (Outcome SpendError Unit)} :
    SpentEvent.effect key x = .apply () ↔ x.1.key = some key := by
  unfold effect
  split
  · next h => simp [h]
  · next h => split <;> simp [h]

theorem SpentEvent.effect_eq_clear {key : SpendKey}
    {x : SpentEvent × Option (Outcome SpendError Unit)} :
    SpentEvent.effect key x = .clear ↔ x.1.Retires key.1 := by
  obtain ⟨e, r⟩ := x
  cases e with
  | check keyEpoch nonce =>
    unfold effect
    split <;> simp [Retires]
  | prune keepFrom =>
    unfold effect
    rw [if_neg (by simp [SpentEvent.key])]
    split
    · next h => simp [h]
    · next h => simp [h]

theorem SpentEvent.effect_eq_keep {key : SpendKey}
    {x : SpentEvent × Option (Outcome SpendError Unit)} (hkey : x.1.key ≠ some key)
    (hretires : ¬ x.1.Retires key.1) : SpentEvent.effect key x = .keep := by
  rw [effect, if_neg hkey, if_neg hretires]

theorem checkedSince_iff {key : SpendKey} {h : SpentHistory} :
    CheckedSince key h ↔ () ∈ sinceCleared (SpentEvent.effect key) h := by
  rw [mem_sinceCleared]
  simp only [SpentEvent.effect_eq_apply, ne_eq, SpentEvent.effect_eq_clear, CheckedSince]

/-- The spent set is a table of records. -/
theorem spent_entries : EntriesOf InMemorySpentStore.step .new
    (fun s (key : SpendKey) => decide (key ∈ s.seen)) false (fun _ _ => true)
    SpentEvent.effect := by
  refine ⟨fun key => by simp [InMemorySpentStore.new], ?_⟩
  intro h s e s' r _ hstep key
  cases e with
  | check keyEpoch nonce =>
    have hstate : s' = (s.checkAndMark keyEpoch nonce).1 :=
      (congrArg Prod.fst (Option.some.inj hstep)).symm
    by_cases hkey : (keyEpoch, nonce) = key
    · have heffect : SpentEvent.effect key (.check keyEpoch nonce, r) = .apply () :=
        SpentEvent.effect_eq_apply.mpr (congrArg some hkey)
      rw [hstate, heffect]
      simp [Effect.on, InMemorySpentStore.seen_checkAndMark, hkey]
    · have heffect : SpentEvent.effect key (.check keyEpoch nonce, r) = .keep :=
        SpentEvent.effect_eq_keep (fun heq => hkey (Option.some.inj heq)) not_false
      rw [hstate, heffect]
      simp [Effect.on, InMemorySpentStore.seen_checkAndMark, Ne.symm hkey]
  | prune keepFrom =>
    have hstate : s' = s.pruneEpochsBefore keepFrom :=
      (congrArg Prod.fst (Option.some.inj hstep)).symm
    by_cases hlt : key.1 < keepFrom
    · have heffect : SpentEvent.effect key (.prune keepFrom, r) = .clear :=
        SpentEvent.effect_eq_clear.mpr hlt
      rw [hstate, heffect]
      simp [Effect.on, InMemorySpentStore.pruneEpochsBefore, hlt]
    · have heffect : SpentEvent.effect key (.prune keepFrom, r) = .keep :=
        SpentEvent.effect_eq_keep (by simp [SpentEvent.key]) hlt
      rw [hstate, heffect]
      simp [Effect.on, InMemorySpentStore.pruneEpochsBefore, UInt32.not_lt.mp hlt]

theorem mem_seen_iff {h : SpentHistory} {s : InMemorySpentStore}
    (ht : Trace InMemorySpentStore.step .new h s) (key : SpendKey) :
    key ∈ s.seen ↔ CheckedSince key h := by
  have hfold : ∀ l : List Unit, l.foldl (fun _ _ => true) false = decide (() ∈ l) := by
    intro l
    rcases List.eq_nil_or_concat l with rfl | ⟨l', x, rfl⟩
    · rfl
    · simp
  have hview := spent_entries.view_eq ht key
  rw [hfold, decide_eq_decide] at hview
  exact hview.trans checkedSince_iff.symm

instance (key : SpendKey) (h : SpentHistory) : Decidable (CheckedSince key h) :=
  decidable_of_iff _ checkedSince_iff.symm

theorem checkAndMark_since {h : SpentHistory} {s : InMemorySpentStore}
    (ht : Trace InMemorySpentStore.step .new h s) (keyEpoch : UInt32) (nonce : Bytes 32) :
    (s.checkAndMark keyEpoch nonce).2 =
      if CheckedSince (keyEpoch, nonce) h then .err .doubleSpend else .ok () := by
  rw [InMemorySpentStore.checkAndMark]
  by_cases hseen : (keyEpoch, nonce) ∈ s.seen
  · rw [if_pos hseen, if_pos ((mem_seen_iff ht _).mp hseen)]
  · rw [if_neg hseen, if_neg fun hsince => hseen ((mem_seen_iff ht _).mpr hsince)]

/-- Without a prune above its epoch, a pair was checked since if it was checked at all. -/
theorem checkedSince_of_forall {key : SpendKey} {h : SpentHistory}
    (hkeep : ∀ x ∈ h, ¬ x.1.Retires key.1) :
    CheckedSince key h ↔ key ∈ h.filterMap fun x => x.1.key := by
  rw [List.mem_filterMap]
  constructor
  · rintro ⟨before, x, after, rfl, hkey, -⟩
    exact ⟨x, by simp, hkey⟩
  · rintro ⟨x, hx, hkey⟩
    obtain ⟨before, after, rfl⟩ := List.append_of_mem hx
    exact ⟨before, x, after, rfl, hkey, fun y hy => hkeep y (by simp [hy])⟩

/--
**What pruning makes the spent set forget.** After every run of checks and prunes, a check is
refused exactly if the pair was checked since the last prune above its epoch. Where no epoch is
checked again after a prune above it, the answers are those of a set that is never pruned.
-/
theorem spent_since_prune {h : SpentHistory} {s : InMemorySpentStore}
    (ht : Trace InMemorySpentStore.step .new h s) :
    (∀ keyEpoch nonce, (s.checkAndMark keyEpoch nonce).2 =
      if CheckedSince (keyEpoch, nonce) h then .err .doubleSpend else .ok ()) ∧
    ((∀ before x after, h = before ++ x :: after → ∀ key, x.1.key = some key →
        ∀ y ∈ before, ¬ y.1.Retires key.1) →
      h.filterMap (fun x => x.2) =
        (InMemorySpentStore.new.answers (h.filterMap fun x => x.1.key)).2) := by
  refine ⟨checkAndMark_since ht, ?_⟩
  induction ht with
  | init => intro _; rfl
  | @snoc h s s' e r ht hstep ih =>
    intro hsafe
    obtain ⟨hbefore, hlast⟩ := forall_split_snoc.mp hsafe
    have ih := ih hbefore
    rw [List.filterMap_append, List.filterMap_append, ih]
    cases e with
    | check keyEpoch nonce =>
      have hsince := checkAndMark_since ht keyEpoch nonce
      cases hstep
      show _ ++ [(s.checkAndMark keyEpoch nonce).2]
        = (InMemorySpentStore.new.answers (_ ++ [(keyEpoch, nonce)])).2
      rw [InMemorySpentStore.answers_append, hsince]
      by_cases hmem : (keyEpoch, nonce) ∈ h.filterMap fun x => x.1.key
      · rw [if_pos hmem, if_pos ((checkedSince_of_forall (hlast _ rfl)).mpr hmem)]
      · rw [if_neg hmem, if_neg fun hc => hmem ((checkedSince_of_forall (hlast _ rfl)).mp hc)]
    | prune keepFrom =>
      cases hstep
      simp [SpentEvent.key]

def prunedNonce : Bytes 32 := ⟨List.replicate 32 6, List.length_replicate⟩

/-- A nonce is checked twice, and then its epoch is pruned. -/
def sampleChecks : List SpentEvent :=
  [.check 1 prunedNonce, .check 1 prunedNonce, .prune 2]

theorem spent_since_prune_sample : ∃ (h : SpentHistory) (s : InMemorySpentStore),
    h.map (fun x => x.2) = [some (.ok ()), some (.err .doubleSpend), none] ∧
      (s.checkAndMark 1 prunedNonce).2 = .ok () := by
  obtain ⟨s, h, hrun, hanswers, hsince⟩ : ∃ s h,
      exec InMemorySpentStore.step .new sampleChecks = some (s, h) ∧
      h.map (fun x => x.2) = [some (.ok ()), some (.err .doubleSpend), none] ∧
      ¬ CheckedSince (1, prunedNonce) h :=
    ⟨_, _, rfl, rfl, by decide⟩
  obtain ⟨hcheck, -⟩ := spent_since_prune (.of_exec hrun)
  exact ⟨h, s, hanswers, (hcheck _ _).trans (if_neg hsince)⟩

/-! ## The limiter -/

variable {cfg : LimiterConfig}

/-- What a call answers. -/
def InMemoryRateLimiter.answer (cfg : LimiterConfig) (s : InMemoryRateLimiter) :
    LimiterCall → Outcome RateLimitError Unit
  | .tryConsumeAt epoch id n => (s.tryConsumeAt cfg epoch id n).2
  | .pruneBefore keepFrom => if (s.pruneBefore keepFrom).isSome then .ok () else .panic

/-- A call, and its answer. -/
def InMemoryRateLimiter.step (cfg : LimiterConfig) (s : InMemoryRateLimiter) (c : LimiterCall) :
    Option (InMemoryRateLimiter × Outcome RateLimitError Unit) :=
  some (s.call cfg c, s.answer cfg c)

/-- The calls so far and their answers, oldest first. -/
abbrev LimiterHistory := List (LimiterCall × Outcome RateLimitError Unit)

/-- What a call does to a counter: an accepted batch is added, a prune above its epoch clears it. -/
def LimiterCall.effect (key : UInt64 × List UInt8) :
    LimiterCall × Outcome RateLimitError Unit → Effect Nat
  | (.tryConsumeAt epoch id n, .ok ()) => if (epoch, id) = key then .apply n.toNat else .keep
  | (.pruneBefore keepFrom, _) => if key.1 < keepFrom then .clear else .keep
  | _ => .keep

/-- What was accepted for a key since the last prune above its epoch. -/
def acceptedSince (key : UInt64 × List UInt8) (h : LimiterHistory) : Nat :=
  (sinceCleared (LimiterCall.effect key) h).sum

/-- What was ever accepted for a key. -/
def acceptedEver (key : UInt64 × List UInt8) (h : LimiterHistory) : Nat :=
  (applied (LimiterCall.effect key) h).sum

/-- The prunes above the epoch of a key. -/
def prunesAbove (key : UInt64 × List UInt8) (h : LimiterHistory) : Nat :=
  clearings (LimiterCall.effect key) h

theorem capInv_trace (hb : cfg.Bounded) {h : LimiterHistory} {s : InMemoryRateLimiter}
    (ht : Trace (InMemoryRateLimiter.step cfg) .new h s) : CapInv cfg s := by
  induction ht with
  | init => exact ⟨rfl, fun key => Nat.zero_le _⟩
  | snoc _ hstep ih =>
    obtain ⟨rfl, -⟩ := Prod.mk.inj (Option.some.inj hstep)
    exact ih.call hb _

/-- The limiter is a table of counters. -/
theorem limiter_entries (hb : cfg.Bounded) : EntriesOf (InMemoryRateLimiter.step cfg) .new
    (fun s (key : UInt64 × List UInt8) => (s.state key).toNat) 0 (· + ·) LimiterCall.effect := by
  refine ⟨fun key => rfl, ?_⟩
  intro h s c s' r ht hstep key
  have hinv := capInv_trace hb ht
  obtain ⟨rfl, rfl⟩ := Prod.mk.inj (Option.some.inj hstep)
  cases c with
  | tryConsumeAt epoch id n =>
    simp only [InMemoryRateLimiter.call, InMemoryRateLimiter.answer,
      InMemoryRateLimiter.tryConsumeAt_eq hb hinv.unpoisoned]
    by_cases hfits : (s.state (epoch, id)).toNat + n.toNat ≤ cfg.maxPerEpoch.toNat
    · rw [if_pos hfits]
      by_cases hkey : (epoch, id) = key
      · -- the sum is under the cap, so it does not wrap
        subst hkey
        have hmax := cfg.maxPerEpoch.toNat_lt
        rw [LimiterCall.effect, if_pos rfl]
        dsimp only [Effect.on]
        rw [Function.update_self, UInt32.toNat_add, Nat.mod_eq_of_lt (by omega)]
      · rw [LimiterCall.effect, if_neg hkey]
        dsimp only [Effect.on]
        rw [Function.update_of_ne (Ne.symm hkey)]
    · rw [if_neg hfits]
      rfl
  | pruneBefore keepFrom =>
    simp only [InMemoryRateLimiter.call, InMemoryRateLimiter.pruneBefore, hinv.unpoisoned,
      Bool.false_eq_true, if_false, Option.getD_some, LimiterCall.effect]
    by_cases hlt : key.1 < keepFrom
    · rw [if_pos hlt, if_neg fun hle => absurd hlt (UInt64.not_lt.mpr hle)]
      rfl
    · rw [if_neg hlt, if_pos (UInt64.not_lt.mp hlt)]
      rfl

theorem state_eq_acceptedSince (hb : cfg.Bounded) {h : LimiterHistory} {s : InMemoryRateLimiter}
    (ht : Trace (InMemoryRateLimiter.step cfg) .new h s) (key : UInt64 × List UInt8) :
    (s.state key).toNat = acceptedSince key h :=
  ((limiter_entries hb).view_eq ht key).trans List.sum_eq_foldl.symm

/--
**What pruning makes the limiter forget.** Below the largest cap, after every run of calls and
prunes, a batch is accepted exactly if it fits under the cap together with what was accepted for its
key since the last prune above its epoch. So over the whole run a key gets at most one cap, and one
more for each prune above its epoch.
-/
theorem quota_since_prune (hb : cfg.Bounded) {h : LimiterHistory} {s : InMemoryRateLimiter}
    (ht : Trace (InMemoryRateLimiter.step cfg) .new h s) :
    (∀ epoch id n, (s.tryConsumeAt cfg epoch id n).2 =
      if acceptedSince (epoch, id) h + n.toNat ≤ cfg.maxPerEpoch.toNat then .ok ()
      else .err .exceeded) ∧
    ∀ key, acceptedEver key h ≤ cfg.maxPerEpoch.toNat * (prunesAbove key h + 1) := by
  have hsince : ∀ {h' : LimiterHistory}, h' <+: h → ∀ key,
      acceptedSince key h' ≤ cfg.maxPerEpoch.toNat := by
    rintro h' ⟨rest, rfl⟩ key
    obtain ⟨t, ht', -⟩ := Trace.append_iff.mp ht
    rw [← state_eq_acceptedSince hb ht' key]
    exact (capInv_trace hb ht').capped key
  constructor
  · intro epoch id n
    rw [InMemoryRateLimiter.tryConsumeAt_eq hb (capInv_trace hb ht).unpoisoned,
      state_eq_acceptedSince hb ht]
    split <;> rfl
  · intro key
    have hsum := sum_applied_le fun before hpre => hsince hpre key
    have hlast : acceptedSince key h ≤ cfg.maxPerEpoch.toNat := hsince List.prefix_rfl key
    rw [Nat.mul_add, Nat.mul_one]
    exact hsum.trans (Nat.add_le_add_left hlast _)

/-- The cap of ten is used up in epoch 0, and once more when the epoch has been pruned. -/
def sampleBudgets : List LimiterCall :=
  [.tryConsumeAt 0 [] 10, .tryConsumeAt 0 [] 1, .pruneBefore 1, .tryConsumeAt 0 [] 10]

theorem quota_since_prune_sample : ∃ (h : LimiterHistory) (s : InMemoryRateLimiter),
    h.map (fun x => x.2) = [.ok (), .err .exceeded, .ok (), .ok ()] ∧
      acceptedEver (0, []) h = 20 ∧ 20 ≤ 10 * (prunesAbove (0, []) h + 1) ∧
      (s.tryConsumeAt sampleLimiter 0 [] 1).2 = .err .exceeded := by
  obtain ⟨s, h, hrun, hanswers, hever, hsince⟩ : ∃ s h,
      exec (InMemoryRateLimiter.step sampleLimiter) .new sampleBudgets = some (s, h) ∧
      h.map (fun x => x.2) = [.ok (), .err .exceeded, .ok (), .ok ()] ∧
      acceptedEver (0, []) h = 20 ∧ acceptedSince (0, []) h = 10 :=
    ⟨_, _, rfl, rfl, rfl, rfl⟩
  obtain ⟨hcall, htotal⟩ := quota_since_prune (by decide) (.of_exec hrun)
  refine ⟨h, s, hanswers, hever, hever ▸ htotal (0, []), ?_⟩
  rw [hcall, hsince]
  rfl

end EatPass
