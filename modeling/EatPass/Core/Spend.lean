import EatPass.Infra.Bytes
import EatPass.Infra.Outcome
import Mathlib.Data.Finset.Filter
import Mathlib.Data.Finset.Insert

/-!
# Spent tokens

`core/src/spend.rs`. A spent token is recorded by its key epoch and its nonce. The in-memory store
is here, the networked one in `cli/src/store.rs`.

* `InMemorySpentStore.answers_append` — a call is accepted exactly when no call before it had the
  same arguments
-/

namespace EatPass

open Infra

inductive SpendError where
  | doubleSpend
  | backend (what : String)
deriving DecidableEq

def SpendError.message : SpendError → String
  | .doubleSpend => "token already spent (double-spend)"
  | .backend what => "spend backend unavailable: " ++ what

/-- The key epoch and the nonce of a token: the arguments of `check_and_mark`. -/
abbrev SpendKey := UInt32 × Bytes 32

/-- `SpentStore`: what it keeps, and `check_and_mark`. -/
structure SpentStore where
  State : Type
  checkAndMark : State → UInt32 → Bytes 32 → State × Outcome SpendError Unit

/-! ## The in-memory store -/

/-- The spent set, epoched by key version. -/
structure InMemorySpentStore where
  seen : Finset SpendKey
deriving DecidableEq

namespace InMemorySpentStore

def new : InMemorySpentStore := ⟨∅⟩

def checkAndMark (s : InMemorySpentStore) (keyEpoch : UInt32) (nonce : Bytes 32) :
    InMemorySpentStore × Outcome SpendError Unit :=
  if (keyEpoch, nonce) ∈ s.seen then (s, .err .doubleSpend)
  else (⟨insert (keyEpoch, nonce) s.seen⟩, .ok ())

/-- `prune_epochs_before`. -/
def pruneEpochsBefore (s : InMemorySpentStore) (keepFrom : UInt32) : InMemorySpentStore :=
  ⟨s.seen.filter fun key => keepFrom ≤ key.1⟩

/-- The answers to a sequence of calls, and the store after it. -/
def answers (s : InMemorySpentStore) :
    List SpendKey → InMemorySpentStore × List (Outcome SpendError Unit)
  | [] => (s, [])
  | c :: rest =>
    let (s', r) := s.checkAndMark c.1 c.2
    let (t, rs) := s'.answers rest
    (t, r :: rs)

theorem seen_checkAndMark (s : InMemorySpentStore) (keyEpoch : UInt32) (nonce : Bytes 32) :
    (s.checkAndMark keyEpoch nonce).1.seen = insert (keyEpoch, nonce) s.seen := by
  rw [checkAndMark]
  split
  · next h => exact (Finset.insert_eq_of_mem h).symm
  · rfl

theorem checkAndMark_ok {s : InMemorySpentStore} {keyEpoch : UInt32} {nonce : Bytes 32} :
    (s.checkAndMark keyEpoch nonce).2 = .ok () ↔ (keyEpoch, nonce) ∉ s.seen := by
  rw [checkAndMark]
  split
  · next h => simp [h]
  · next h => simp [h]

theorem mem_seen_answers (calls : List SpendKey) : ∀ (s : InMemorySpentStore) (c : SpendKey),
    c ∈ (s.answers calls).1.seen ↔ c ∈ s.seen ∨ c ∈ calls := by
  induction calls with
  | nil => simp [answers]
  | cons d rest ih =>
    intro s c
    rw [answers]
    simp only [ih, seen_checkAndMark, Finset.mem_insert, List.mem_cons]
    tauto

theorem answers_append_of (calls : List SpendKey) (c : SpendKey) : ∀ s : InMemorySpentStore,
    (s.answers (calls ++ [c])).2 =
      (s.answers calls).2 ++ [((s.answers calls).1.checkAndMark c.1 c.2).2] := by
  induction calls with
  | nil => intro s; rfl
  | cons d rest ih =>
    intro s
    rw [List.cons_append, answers, answers]
    simp only [ih, List.cons_append]

/-- **The in-memory store accepts a call exactly when it is the first with its arguments.** -/
theorem answers_append (calls : List SpendKey) (c : SpendKey) :
    (new.answers (calls ++ [c])).2 =
      (new.answers calls).2 ++ [if c ∈ calls then .err .doubleSpend else .ok ()] := by
  rw [answers_append_of, checkAndMark]
  have hmem : c ∈ (new.answers calls).1.seen ↔ c ∈ calls := by
    rw [mem_seen_answers]
    simp [new]
  by_cases hc : c ∈ calls
  · rw [if_pos hc, if_pos (hmem.mpr hc)]
  · rw [if_neg hc, if_neg fun h => hc (hmem.mp h)]

end InMemorySpentStore

/-- The in-memory store as a `SpentStore`. -/
abbrev inMemorySpentStore : SpentStore where
  State := InMemorySpentStore
  checkAndMark := InMemorySpentStore.checkAndMark

end EatPass
