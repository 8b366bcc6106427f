import EatPass.Infra.ExpiringCounters
import EatPass.Infra.Hex
import EatPass.Core.RateLimit
import EatPass.Cli.Store

/-!
# The Redis rate limiter

`RedisRateLimiter` of `cli/src/store.rs`. A call is one script, which Redis runs as a whole: it
adds first, notices the first call on a counter by the value, and takes back what goes over the
cap. An error in the middle of the script keeps what was done before it.

The numbers of the script are Lua numbers. They are exact up to 2 ^ 53, and a counter stays below
2 ^ 33: it is at most the cap when the script starts.
-/

namespace EatPass

open Infra

/-- What Redis keeps for the limiter: counters under textual keys. -/
abbrev RedisCounters := CounterSpace (List Char)

/-- `CONSUME_LUA`. `none` is an error reply of one of its commands. -/
def consumeLua (db : RedisCounters) (key : List Char) (n ttl max now : Int) :
    RedisCounters × Option Int :=
  match db.incrBy key n now with
  | none => (db, none)
  | some (db, v) =>
    match if v = n then db.expire key ttl now else some db with
    | none => (db, none)
    | some db =>
      if max < v then
        match db.decrBy key n now with
        | none => (db, none)
        | some (db, _) => (db, some 0)
      else (db, some 1)

/-- `format!("eatpass:rl:{epoch}:{}", hex::encode(attestation_id))`. -/
def limitKey (epoch : UInt64) (attestationId : List UInt8) : List Char :=
  "eatpass:rl:".toList ++ (showU64 epoch ++ ':' :: Hex.encode attestationId)

namespace RedisRateLimiter

variable (cfg : LimiterConfig)

/-- `epoch_secs`, as `connect` has stored it. -/
def epochSecs : UInt64 := max cfg.epochSecs 1

/-- The expiry of a counter, in seconds. -/
def ttl : UInt64 := max (saturatingAddU64 (epochSecs cfg) (epochSecs cfg / 2)) 1

/-- `current_epoch`, when the clock stands at `now` milliseconds. -/
def currentEpoch (now : Nat) : UInt64 := UInt64.ofNat (now / 1000) / epochSecs cfg

/-- `try_consume`. The text of a backend error is that of the library. -/
def tryConsume (db : RedisCounters) (now : Nat) (attestationId : List UInt8) (n : UInt32) :
    RedisCounters × Outcome RateLimitError Unit :=
  let key := limitKey (currentEpoch cfg now) attestationId
  match consumeLua db key n.toNat (asI64 (ttl cfg)) cfg.maxPerEpoch.toNat now with
  | (db, none) => (db, .err (.backend "eval"))
  | (db, some ok) => (db, if ok = 1 then .ok () else .err .exceeded)

end RedisRateLimiter

/-! ## Limiters on a clock -/

/-- A limiter and the clock all replicas read, in milliseconds. -/
structure Clocked (σ : Type) where
  limiter : σ
  clock : Nat

inductive LimiterEvent where
  /-- A replica calls `try_consume`. -/
  | consume (replica : Nat) (attestationId : List UInt8) (n : UInt32)
  | wait (ms : Nat)
deriving DecidableEq

/-- One step of a limiter whose `try_consume` is given. A call shows what it returns. -/
def Clocked.step {σ : Type}
    (tryConsume : σ → Nat → List UInt8 → UInt32 → σ × Outcome RateLimitError Unit)
    (s : Clocked σ) : LimiterEvent → Option (Clocked σ × Option (Outcome RateLimitError Unit))
  | .consume _ attestationId n =>
    let (limiter, result) := tryConsume s.limiter s.clock attestationId n
    some (⟨limiter, s.clock⟩, some result)
  | .wait ms => some ({ s with clock := s.clock + ms }, none)

theorem Clocked.step_consume {σ : Type}
    {tryConsume : σ → Nat → List UInt8 → UInt32 → σ × Outcome RateLimitError Unit}
    (s : Clocked σ) (replica : Nat) (attestationId : List UInt8) (n : UInt32) :
    s.step tryConsume (.consume replica attestationId n)
      = some (⟨(tryConsume s.limiter s.clock attestationId n).1, s.clock⟩,
          some (tryConsume s.limiter s.clock attestationId n).2) := rfl

/-- `try_consume` of the in-memory limiter on the same clock. -/
def memoryTryConsume (cfg : LimiterConfig) (s : InMemoryRateLimiter) (now : Nat) :
    List UInt8 → UInt32 → InMemoryRateLimiter × Outcome RateLimitError Unit :=
  s.tryConsumeAt cfg (InMemoryRateLimiter.currentEpoch cfg (UInt64.ofNat (now / 1000)))

/-- Any number of replicas on an empty Redis. -/
def redisStart (clock : Nat) : Clocked RedisCounters := ⟨fun _ => none, clock⟩

/-- One in-memory limiter for all of them. -/
def memoryStart (clock : Nat) : Clocked InMemoryRateLimiter := ⟨.new, clock⟩

theorem Clocked.step_clock {σ : Type}
    {tryConsume : σ → Nat → List UInt8 → UInt32 → σ × Outcome RateLimitError Unit}
    {s s' : Clocked σ} {e : LimiterEvent} {r : Option (Outcome RateLimitError Unit)}
    (h : s.step tryConsume e = some (s', r)) : s.clock ≤ s'.clock := by
  cases e with
  | consume replica attestationId n =>
    cases h
    exact Nat.le_refl _
  | wait ms =>
    cases h
    exact Nat.le_add_right _ _

/-! ## The script -/

/-- The expiry time of a counter after the script. -/
def deadline (c : ExpiringCounter) (ttl now : Int) : Option Int :=
  if c.value = 0 then some (now + 1000 * ttl) else c.expiresAt

/--
**What the script does to a counter**: it adds what fits under the cap and answers 1, and leaves
the value alone and answers 0 otherwise. A counter that stood at 0 gets a new expiry time in both
cases, be it new, rolled back, or touched by calls for nothing.
-/
theorem consumeLua_eq {db : RedisCounters} {key : List Char} {ttl now : Int}
    {c : ExpiringCounter} (hc : db.counter key now = c) (n max : Int) (hvalue : InI64 c.value)
    (hsum : InI64 (c.value + n)) (httl : 0 < ttl)
    (hexpire : InI64 (1000 * ttl) ∧ InI64 (now + 1000 * ttl)) :
    consumeLua db key n ttl max now =
      if c.value + n ≤ max then
        (db.write key ⟨c.value + n, deadline c ttl now⟩, some 1)
      else (db.write key ⟨c.value, deadline c ttl now⟩, some 0) := by
  have hlive : c.expired now = false := hc ▸ CounterSpace.expired_counter db key now
  -- a positive expiry lies ahead, so the `DECRBY` still finds the counter
  have hdeadline : ∀ v, ExpiringCounter.expired ⟨v, deadline c ttl now⟩ now = false := by
    intro v
    unfold deadline
    by_cases hzero : c.value = 0
    · rw [if_pos hzero]
      simp only [ExpiringCounter.expired, decide_eq_false_iff_not]
      omega
    · rw [if_neg hzero]
      exact hlive
  -- the script sees its own amount exactly when the counter was at zero
  have hfirst : (if c.value + n = n then
      (db.write key ⟨c.value + n, c.expiresAt⟩).expire key ttl now
      else some (db.write key ⟨c.value + n, c.expiresAt⟩))
      = some (db.write key ⟨c.value + n, deadline c ttl now⟩) := by
    unfold deadline
    by_cases hzero : c.value = 0
    · rw [if_pos (by omega), if_pos hzero]
      exact CounterSpace.expire_write (c := ⟨c.value + n, c.expiresAt⟩) hlive hexpire
    · rw [if_neg (by omega), if_neg hzero]
  have hback : c.value + n + -n = c.value := by omega
  unfold consumeLua
  rw [CounterSpace.incrBy_eq_some hc hsum]
  simp only [hfirst]
  by_cases hfits : c.value + n ≤ max
  · rw [if_neg (by omega), if_pos hfits]
  · rw [if_pos (by omega), if_neg hfits, CounterSpace.decrBy,
      CounterSpace.incrBy_write (hdeadline _) (by rw [hback]; exact hvalue)]
    simp only [hback]

/-! ## The expiry -/

theorem asI64_of_lt {x : UInt64} (h : x.toNat < 2 ^ 63) : asI64 x = x.toNat := by
  show x.toBitVec.toInt = _
  have hbits : x.toBitVec.toNat = x.toNat := rfl
  rw [BitVec.toInt_eq_toNat_of_lt (by omega), hbits]

theorem RedisRateLimiter.epochSecs_pos (cfg : LimiterConfig) :
    0 < (RedisRateLimiter.epochSecs cfg).toNat := by
  unfold RedisRateLimiter.epochSecs
  rw [toNat_max_u64]
  exact Nat.lt_of_lt_of_le Nat.one_pos (Nat.le_max_right _ _)

/-- The expiry is one and a half epochs, if that is a `u64`. -/
theorem RedisRateLimiter.toNat_ttl {cfg : LimiterConfig}
    (h : (epochSecs cfg).toNat + (epochSecs cfg).toNat / 2 < 2 ^ 64) :
    (ttl cfg).toNat = (epochSecs cfg).toNat + (epochSecs cfg).toNat / 2 := by
  have hpos := epochSecs_pos cfg
  have hhalf : (epochSecs cfg / 2).toNat = (epochSecs cfg).toNat / 2 := UInt64.toNat_div _ _
  unfold ttl
  rw [toNat_max_u64, toNat_saturatingAddU64 (by rw [hhalf]; exact h), hhalf]
  exact Nat.max_eq_left (Nat.le_add_right_of_le hpos)

/-! ## Keys -/

/-- **Counters of different epochs or identities have different keys.** -/
theorem limitKey_inj {e f : UInt64} {a b : List UInt8} (h : limitKey e a = limitKey f b) :
    e = f ∧ a = b := by
  have htail := List.append_cancel_left h
  have hcolon : ∀ epoch : UInt64, ∀ c ∈ showU64 epoch, c ≠ ':' := by
    rintro epoch c hc rfl
    exact absurd (isDigit_of_mem_showU64 hc) (by decide)
  -- the first `:` ends the digits of the epoch
  have hsplit := congrArg (splitOnce ':') htail
  rw [splitOnce_append (hcolon e), splitOnce_append (hcolon f)] at hsplit
  obtain ⟨hepoch, hid⟩ := Prod.mk.inj (Option.some.inj hsplit)
  refine ⟨?_, Hex.encode_injective hid⟩
  have hparse := congrArg parseU64 hepoch
  rw [parseU64_showU64, parseU64_showU64] at hparse
  exact Option.some.inj hparse

end EatPass
