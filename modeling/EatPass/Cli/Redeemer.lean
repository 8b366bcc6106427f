import EatPass.Core.Spend
import EatPass.Cli.Wire

/-!
# The redeemer

`cli/src/redeemer.rs`: the one place where a token is spent. The handler is one step, since the
store checks and marks atomically.
-/

namespace EatPass

open Infra

/-- Reads the nonce of a body. -/
def RedeemBody.readNonce (body : RedeemBody) : Option (Bytes 32) :=
  Hex.decodeArray 32 (trim body.nonce.toList)

/-- `redeem`; the result `ok` is the status 200. -/
def redeem (store : SpentStore) (spent : store.State) (body : RedeemBody) :
    store.State × Reply Unit :=
  match body.readNonce with
  | none => (spent, .err (.badRequest, "nonce must be 32-byte hex"))
  | some nonce =>
    let (spent, result) := store.checkAndMark spent body.keyEpoch nonce
    (spent, result.mapErr fun e =>
      match e with
      | .doubleSpend => (.conflict, e.message)
      | .backend _ => (.serviceUnavailable, e.message))

/-- The status line of an answer. A handler that panics sends none. -/
def Reply.status {α : Type} : Reply α → Option StatusCode
  | .ok _ => some .ok
  | .err (code, _) => some code
  | .panic => none

/-- The body `spend_centrally` sends. -/
def spendBody (keyEpoch : UInt32) (nonce : Bytes 32) : RedeemBody where
  keyEpoch := keyEpoch
  nonce := String.ofList (Hex.encode nonce.val)

@[simp] theorem readNonce_spendBody (keyEpoch : UInt32) (nonce : Bytes 32) :
    (spendBody keyEpoch nonce).readNonce = some nonce := by
  simp [RedeemBody.readNonce, spendBody]

/-- What a call of the in-memory redeemer does: a pair is accepted once, and stays spent. -/
theorem redeem_inMemory (spent : InMemorySpentStore) (body : RedeemBody) :
    spent.seen ⊆ (redeem inMemorySpentStore spent body).1.seen ∧
      (Reply.status (redeem inMemorySpentStore spent body).2 = some .ok → ∃ nonce,
        body.readNonce = some nonce ∧ (body.keyEpoch, nonce) ∉ spent.seen ∧
          (body.keyEpoch, nonce) ∈ (redeem inMemorySpentStore spent body).1.seen) := by
  unfold redeem
  cases hn : body.readNonce with
  | none => exact ⟨fun _ h => h, by simp [Reply.status]⟩
  | some nonce =>
    simp only [InMemorySpentStore.seen_checkAndMark, Finset.subset_insert,
      true_and]
    intro hok
    refine ⟨nonce, rfl, ?_, Finset.mem_insert_self _ _⟩
    rw [← InMemorySpentStore.checkAndMark_ok]
    cases hres : (spent.checkAndMark body.keyEpoch nonce).2 with
    | ok u => rfl
    | err e => cases e <;> simp [hres, Reply.status] at hok
    | panic => simp [hres, Outcome.mapErr, Reply.status] at hok

/-- The first call for a pair is answered with 200. -/
theorem redeem_spendBody {spent : InMemorySpentStore} {keyEpoch : UInt32} {nonce : Bytes 32}
    (h : (keyEpoch, nonce) ∉ spent.seen) :
    redeem inMemorySpentStore spent (spendBody keyEpoch nonce)
      = (⟨insert (keyEpoch, nonce) spent.seen⟩, .ok ()) := by
  have hcall : spent.checkAndMark keyEpoch nonce
      = (⟨insert (keyEpoch, nonce) spent.seen⟩, .ok ()) := if_neg h
  simp only [redeem, readNonce_spendBody, inMemorySpentStore]
  rw [show (spendBody keyEpoch nonce).keyEpoch = keyEpoch from rfl, hcall]
  rfl

end EatPass
