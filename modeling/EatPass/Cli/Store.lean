import EatPass.Core.Spend
import EatPass.Infra.ExpiringSets
import EatPass.Infra.Hex
import EatPass.Infra.Trace

/-!
# The Redis spent store

`RedisSpentStore` of `cli/src/store.rs`. `check_and_mark` sends two commands: `SADD`, whose answer
decides the call, and then `EXPIRE`. Redis runs commands one at a time, so between the two commands
of one call there may be commands of other calls, from the same redeemer or from another replica,
and any amount of time. `RedisReplicas.step` is that system. There are no backend errors in it.
-/

namespace EatPass

open Infra

/-- What Redis keeps for the store: sets of texts under textual keys. -/
abbrev Redis := KeySpace (List Char) (List Char)

/-- `format!("eatpass:spent:{key_epoch}")`. -/
def spentKey (keyEpoch : UInt32) : List Char :=
  "eatpass:spent:".toList ++ Nat.toDigits 10 keyEpoch.toNat

/-- `x as i64` for `x: u64`. -/
def asI64 (x : UInt64) : Int := x.toInt64.toInt

structure RedisSpentStore where
  ttlSecs : UInt64

namespace RedisSpentStore

/-- `RedisSpentStore::connect`, once the server has answered. -/
def connect (ttlSecs : UInt64) : RedisSpentStore := ⟨max ttlSecs 1⟩

/-- The first command of `check_and_mark`, and what the call returns in the end. -/
def check (db : Redis) (now : Int) (keyEpoch : UInt32) (nonce : Bytes 32) :
    Redis × Outcome SpendError Unit :=
  let (db, added) := db.sadd (spentKey keyEpoch) (Hex.encode nonce.val) now
  (db, if added = 1 then .ok () else .err .doubleSpend)

/-- The second command of `check_and_mark`. Its answer is dropped. -/
def refresh (store : RedisSpentStore) (db : Redis) (now : Int) (keyEpoch : UInt32) : Redis :=
  db.expire (spentKey keyEpoch) (asI64 store.ttlSecs) now

end RedisSpentStore

/-! ## Replicas on one Redis -/

/--
The server, its clock in milliseconds, and the calls that still have to send `EXPIRE`: for each
pooled connection of each replica, the epoch of the call that holds it.
-/
structure RedisReplicas where
  db : Redis
  clock : Int
  inFlight : Nat → Option UInt32

inductive RedisEvent where
  /-- A call takes a free connection and sends `SADD`. -/
  | check (conn : Nat) (keyEpoch : UInt32) (nonce : Bytes 32)
  /-- The call on a connection sends `EXPIRE` and returns. -/
  | refresh (conn : Nat)
  | wait (ms : Nat)
deriving DecidableEq

/-- An empty server. -/
def RedisReplicas.start (clock : Int) : RedisReplicas := ⟨fun _ => none, clock, fun _ => none⟩

/-- One step of the system. A `check` shows what its call will return. -/
def RedisReplicas.step (store : RedisSpentStore) (s : RedisReplicas) :
    RedisEvent → Option (RedisReplicas × Option (Outcome SpendError Unit))
  | .check conn keyEpoch nonce =>
    match s.inFlight conn with
    | some _ => none
    | none =>
      let (db, result) := RedisSpentStore.check s.db s.clock keyEpoch nonce
      some (⟨db, s.clock, Function.update s.inFlight conn (some keyEpoch)⟩, some result)
  | .refresh conn =>
    match s.inFlight conn with
    | none => none
    | some keyEpoch =>
      some (⟨store.refresh s.db s.clock keyEpoch, s.clock, Function.update s.inFlight conn none⟩,
        none)
  | .wait ms => some ({ s with clock := s.clock + ms }, none)

/-! ## Keys and members -/

theorem spentKey_injective : Function.Injective spentKey := by
  intro a b h
  have hdigits := congrArg (Nat.ofDigitChars 10 · 0) (List.append_cancel_left h)
  simp only [Nat.ofDigitChars_ten_toDigits] at hdigits
  exact UInt32.toNat_inj.mp hdigits

theorem hexNonce_injective {a b : Bytes 32} (h : Hex.encode a.val = Hex.encode b.val) : a = b :=
  Subtype.ext (Hex.encode_injective h)

/-- The spent pairs that are in the server, expired or not. -/
def RedisReplicas.Keeps (s : RedisReplicas) (c : SpendKey) : Prop :=
  s.db.Holds (spentKey c.1) (Hex.encode c.2.val)

/-- The set of an epoch is there and has expired. -/
def RedisReplicas.Expired (s : RedisReplicas) (keyEpoch : UInt32) : Prop :=
  s.db.Lapsed (spentKey keyEpoch) s.clock

/-- The call an event makes. -/
def RedisEvent.call : RedisEvent → Option SpendKey
  | .check _ keyEpoch nonce => some (keyEpoch, nonce)
  | _ => none

/-- **What a step of the system does.** A call is accepted unless its pair is in a set that is
still there, and forgets the set of its epoch if that has expired; nothing else accepts or
forgets. -/
theorem RedisReplicas.step_cases {store : RedisSpentStore} {s s' : RedisReplicas} {e : RedisEvent}
    {r : Option (Outcome SpendError Unit)} (h : s.step store e = some (s', r)) :
    (∃ c, e.call = some c ∧
      (r = some (.ok ()) ∧ ¬ (s.Keeps c ∧ ¬ s.Expired c.1) ∨
        r = some (.err .doubleSpend) ∧ s.Keeps c ∧ ¬ s.Expired c.1) ∧
      ∀ d, s'.Keeps d ↔ d = c ∨ s.Keeps d ∧ ¬ (d.1 = c.1 ∧ s.Expired c.1)) ∨
    (e.call = none ∧ r = none ∧ ∀ d, s'.Keeps d ↔ s.Keeps d) := by
  cases e with
  | check conn keyEpoch nonce =>
    left
    simp only [step] at h
    split at h
    · cases h
    · cases h
      refine ⟨(keyEpoch, nonce), rfl, ?_, fun d => ?_⟩
      · simp only [RedisSpentStore.check]
        by_cases hadd : (s.db.sadd (spentKey keyEpoch) (Hex.encode nonce.val) s.clock).2 = 1
        · exact .inl ⟨by rw [if_pos hadd], KeySpace.reply_sadd.mp hadd⟩
        · refine .inr ⟨by rw [if_neg hadd], ?_⟩
          by_contra hnot
          exact hadd (KeySpace.reply_sadd.mpr hnot)
      · simp only [Keeps, Expired, RedisSpentStore.check, KeySpace.holds_sadd,
          spentKey_injective.eq_iff]
        have hpair : (d.1 = keyEpoch ∧ Hex.encode d.2.val = Hex.encode nonce.val) ↔
            d = (keyEpoch, nonce) := by
          constructor
          · rintro ⟨h1, h2⟩
            exact Prod.ext h1 (hexNonce_injective h2)
          · rintro rfl
            exact ⟨rfl, rfl⟩
        rw [hpair]
  | refresh conn =>
    right
    simp only [step] at h
    split at h
    · cases h
    · cases h
      exact ⟨rfl, rfl, fun d => KeySpace.holds_expire⟩
  | wait ms =>
    right
    cases h
    exact ⟨rfl, rfl, fun d => Iff.rfl⟩

end EatPass
