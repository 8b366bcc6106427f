import EatPass.Cli.RedisLimiter

/-!
# The Redis limiter against the in-memory limiter

Replicas that share one Redis answer every call as one in-memory limiter would. The in-memory
limiter checks and then adds, and never forgets; the script adds, arms the expiry when the counter
stood at 0, and takes back what goes over the cap. What makes the two agree:

* a counter is armed for one and a half epochs, so it outlives its own epoch, and after that no
  call asks for it (`lt_epochEnd_currentEpoch`, `epochEnd_currentEpoch_le`);
* after a rollback the counter is there with the value from before, which is what an absent
  counter stands for if that was 0 (`LimitersAgree`).
-/

namespace EatPass

open Infra

variable {cfg : LimiterConfig}

/-! ## Epochs and expiry -/

/-- One and a half `epoch_secs`. -/
def LimiterConfig.expirySecs (cfg : LimiterConfig) : Nat :=
  (RedisRateLimiter.epochSecs cfg).toNat + (RedisRateLimiter.epochSecs cfg).toNat / 2

/--
The expiry of a counter is in the range of `EXPIRE` when the clock stands at `clock`: Redis
computes the expiry time in milliseconds as a signed 64-bit integer.
-/
def LimiterConfig.ExpireFits (cfg : LimiterConfig) (clock : Nat) : Prop :=
  clock + 1000 * cfg.expirySecs < 2 ^ 63

instance (cfg : LimiterConfig) (clock : Nat) : Decidable (cfg.ExpireFits clock) :=
  inferInstanceAs (Decidable (clock + 1000 * cfg.expirySecs < 2 ^ 63))

theorem asI64_ttl {clock : Nat} (h : cfg.ExpireFits clock) :
    asI64 (RedisRateLimiter.ttl cfg) = cfg.expirySecs := by
  unfold LimiterConfig.ExpireFits at h
  have httl : (RedisRateLimiter.ttl cfg).toNat = cfg.expirySecs := by
    refine RedisRateLimiter.toNat_ttl ?_
    unfold LimiterConfig.expirySecs at h
    omega
  rw [asI64_of_lt (by omega), httl]

theorem expirySecs_pos (cfg : LimiterConfig) : 0 < cfg.expirySecs := by
  have hpos := RedisRateLimiter.epochSecs_pos cfg
  unfold LimiterConfig.expirySecs
  omega

/-- The millisecond in which the epoch ends. -/
def LimiterConfig.epochEnd (cfg : LimiterConfig) (epoch : UInt64) : Nat :=
  1000 * ((RedisRateLimiter.epochSecs cfg).toNat * (epoch.toNat + 1))

theorem toNat_currentEpoch {now : Nat} (h : cfg.ExpireFits now) :
    (RedisRateLimiter.currentEpoch cfg now).toNat
      = now / 1000 / (RedisRateLimiter.epochSecs cfg).toNat := by
  unfold LimiterConfig.ExpireFits at h
  unfold RedisRateLimiter.currentEpoch
  rw [UInt64.toNat_div, UInt64.toNat_ofNat', Nat.mod_eq_of_lt (by omega)]

/-- The current epoch has not ended. -/
theorem lt_epochEnd_currentEpoch {now : Nat} (h : cfg.ExpireFits now) :
    now < cfg.epochEnd (RedisRateLimiter.currentEpoch cfg now) := by
  have hdiv := Nat.lt_mul_div_succ (now / 1000) (RedisRateLimiter.epochSecs_pos cfg)
  unfold LimiterConfig.epochEnd
  rw [toNat_currentEpoch h]
  omega

/-- A counter that is armed now lives until the current epoch ends. -/
theorem epochEnd_currentEpoch_le {now : Nat} (h : cfg.ExpireFits now) :
    cfg.epochEnd (RedisRateLimiter.currentEpoch cfg now) ≤ now + 1000 * cfg.expirySecs := by
  have hdiv := Nat.mul_div_le (now / 1000) (RedisRateLimiter.epochSecs cfg).toNat
  unfold LimiterConfig.epochEnd LimiterConfig.expirySecs
  rw [toNat_currentEpoch h, Nat.mul_add, Nat.mul_one]
  omega

/-! ## The simulation relation -/

/-- A counter of Redis and its in-memory counterpart. An absent counter counts nothing; a counter
that is there outlives its epoch. -/
def CounterAgrees (cfg : LimiterConfig) (epoch : UInt64) (counter : Option ExpiringCounter)
    (used : UInt32) : Prop :=
  used.toNat ≤ cfg.maxPerEpoch.toNat ∧
    match counter with
    | none => used = 0
    | some c => c.value = used.toNat ∧ ∃ t, c.expiresAt = some t ∧ (cfg.epochEnd epoch : Int) ≤ t

/-- All counters agree. -/
structure LimitersAgree (cfg : LimiterConfig) (db : RedisCounters) (m : InMemoryRateLimiter) :
    Prop where
  unpoisoned : m.poisoned = false
  counters : ∀ epoch id, CounterAgrees cfg epoch (db (limitKey epoch id)) (m.state (epoch, id))

theorem limitersAgree_start (clock : Nat) :
    LimitersAgree cfg (redisStart clock).limiter (memoryStart clock).limiter :=
  ⟨rfl, fun _ _ => ⟨Nat.zero_le _, rfl⟩⟩

/-- **A call of the current epoch sees the value of the in-memory counter**, and leaves it armed
beyond the end of the epoch. -/
theorem CounterAgrees.counter {db : RedisCounters} {now : Nat} {id : List UInt8} {used : UInt32}
    (hfits : cfg.ExpireFits now)
    (h : CounterAgrees cfg (RedisRateLimiter.currentEpoch cfg now)
      (db (limitKey (RedisRateLimiter.currentEpoch cfg now) id)) used) :
    ∃ c, db.counter (limitKey (RedisRateLimiter.currentEpoch cfg now) id) now = c ∧
      c.value = used.toNat ∧ ∃ t, deadline c cfg.expirySecs now = some t ∧
        (cfg.epochEnd (RedisRateLimiter.currentEpoch cfg now) : Int) ≤ t := by
  have hend := epochEnd_currentEpoch_le hfits
  have hnow := lt_epochEnd_currentEpoch hfits
  obtain ⟨_, h⟩ := h
  split at h
  · next hdb =>
    refine ⟨⟨0, none⟩, CounterSpace.counter_of_none hdb, by rw [h]; rfl, _, if_pos rfl, by omega⟩
  · next c hdb =>
    obtain ⟨hvalue, t, ht, hle⟩ := h
    have hlive : c.expired now = false := by
      unfold ExpiringCounter.expired
      rw [ht]
      simp only [decide_eq_false_iff_not]
      omega
    refine ⟨c, CounterSpace.counter_of_some hdb hlive, hvalue, ?_⟩
    unfold deadline
    by_cases hzero : c.value = 0
    · exact ⟨_, if_pos hzero, by omega⟩
    · exact ⟨t, by rw [if_neg hzero, ht], hle⟩

/-- Writing a counter and its in-memory counterpart. -/
theorem LimitersAgree.write {db : RedisCounters} {m : InMemoryRateLimiter}
    (h : LimitersAgree cfg db m) {epoch : UInt64} (id : List UInt8) (used : UInt32) {t : Int}
    (hcap : used.toNat ≤ cfg.maxPerEpoch.toNat) (hend : (cfg.epochEnd epoch : Int) ≤ t) :
    LimitersAgree cfg (db.write (limitKey epoch id) ⟨used.toNat, some t⟩)
      ⟨Function.update m.state (epoch, id) used, false⟩ := by
  refine ⟨rfl, fun e i => ?_⟩
  show CounterAgrees cfg e _ (Function.update m.state (epoch, id) used (e, i))
  by_cases hpair : (e, i) = (epoch, id)
  · cases hpair
    rw [CounterSpace.write_self, Function.update_self]
    exact ⟨hcap, rfl, t, rfl, hend⟩
  · -- another pair has another key
    have hkey : limitKey e i ≠ limitKey epoch id := by
      intro heq
      obtain ⟨rfl, rfl⟩ := limitKey_inj heq
      exact hpair rfl
    rw [CounterSpace.write_of_ne hkey, Function.update_of_ne hpair]
    exact h.counters e i

/-! ## One call -/

/-- **A call answers the same on both sides, and keeps the counters in agreement.** -/
theorem LimitersAgree.tryConsume {db : RedisCounters} {m : InMemoryRateLimiter}
    (h : LimitersAgree cfg db m) (hb : cfg.Bounded) {now : Nat} (hfits : cfg.ExpireFits now)
    (id : List UInt8) (n : UInt32) :
    (RedisRateLimiter.tryConsume cfg db now id n).2 = (memoryTryConsume cfg m now id n).2 ∧
      LimitersAgree cfg (RedisRateLimiter.tryConsume cfg db now id n).1
        (memoryTryConsume cfg m now id n).1 := by
  have hagrees := h.counters (RedisRateLimiter.currentEpoch cfg now) id
  obtain ⟨c, hc, hvalue, t, hdeadline, hend⟩ := hagrees.counter hfits
  have hcap := hagrees.1
  have hmem := InMemoryRateLimiter.tryConsumeAt_eq hb h.unpoisoned
    (RedisRateLimiter.currentEpoch cfg now) id n
  generalize hused : m.state (RedisRateLimiter.currentEpoch cfg now, id) = used at *
  have hmax := cfg.maxPerEpoch.toNat_lt
  have hn := n.toNat_lt
  have hpos := expirySecs_pos cfg
  have hlua := consumeLua_eq hc n.toNat cfg.maxPerEpoch.toNat
    (by rw [hvalue]; unfold InI64; omega) (by rw [hvalue]; unfold InI64; omega)
    (show (0 : Int) < cfg.expirySecs by omega)
    (by unfold LimiterConfig.ExpireFits at hfits; unfold InI64; omega)
  rw [hvalue, hdeadline] at hlua
  have hmemory : memoryTryConsume cfg m now id n = _ := hmem
  unfold RedisRateLimiter.tryConsume
  rw [asI64_ttl hfits, hmemory]
  simp only [hlua]
  by_cases hfit : used.toNat + n.toNat ≤ cfg.maxPerEpoch.toNat
  · have hsum : (used + n).toNat = used.toNat + n.toNat := by
      rw [UInt32.toNat_add, Nat.mod_eq_of_lt (by omega)]
    rw [if_pos hfit, if_pos (by omega)]
    refine ⟨rfl, ?_⟩
    have hwrite := h.write id (used + n) (by omega) hend
    rw [hsum] at hwrite
    exact hwrite
  · rw [if_neg hfit, if_neg (by omega)]
    refine ⟨rfl, ?_⟩
    -- the value is taken back, so writing it is writing what the other side already has
    have hwrite := h.write id used hcap hend
    rw [← hused, Function.update_eq_self, ← h.unpoisoned, hused] at hwrite
    exact hwrite

/-! ## Runs -/

/-- The clocks are the same and the counters agree. -/
def Simulates (cfg : LimiterConfig) (s : Clocked RedisCounters) (m : Clocked InMemoryRateLimiter) :
    Prop :=
  s.clock = m.clock ∧ LimitersAgree cfg s.limiter m.limiter

/-- **Every step on Redis is matched by a step of the in-memory limiter with the same answer.** -/
theorem Simulates.step (hb : cfg.Bounded) {s s' : Clocked RedisCounters}
    {m : Clocked InMemoryRateLimiter} {e : LimiterEvent}
    {r : Option (Outcome RateLimitError Unit)} (h : Simulates cfg s m)
    (hfits : cfg.ExpireFits s'.clock)
    (hstep : s.step (RedisRateLimiter.tryConsume cfg) e = some (s', r)) :
    ∃ m', m.step (memoryTryConsume cfg) e = some (m', r) ∧ Simulates cfg s' m' := by
  obtain ⟨db, now⟩ := s
  obtain ⟨memory, now'⟩ := m
  obtain ⟨hclock, hagrees⟩ := h
  obtain rfl : now = now' := hclock
  cases e with
  | consume replica id n =>
    rw [Clocked.step_consume, Option.some.injEq, Prod.mk.injEq] at hstep
    obtain ⟨rfl, rfl⟩ := hstep
    obtain ⟨hsame, hagrees'⟩ := hagrees.tryConsume hb hfits id n
    exact ⟨_, by rw [Clocked.step_consume, ← hsame], rfl, hagrees'⟩
  | wait ms =>
    cases hstep
    exact ⟨_, rfl, rfl, hagrees⟩

/--
**The Redis limiter refines the in-memory limiter.** Whatever the replicas call, and whenever they
do, every run on Redis is a run of one in-memory limiter with the same calls at the same times:
every call gets the same answer.
-/
theorem redis_refines_memory (hb : cfg.Bounded) {clock : Nat}
    {h : List (LimiterEvent × Option (Outcome RateLimitError Unit))} {s : Clocked RedisCounters}
    (ht : Trace (Clocked.step (RedisRateLimiter.tryConsume cfg)) (redisStart clock) h s)
    (hfits : cfg.ExpireFits s.clock) :
    ∃ m, Trace (Clocked.step (memoryTryConsume cfg)) (memoryStart clock) h m := by
  have hclock : ∀ s e s' r, Clocked.step (RedisRateLimiter.tryConsume cfg) s e = some (s', r) →
      cfg.ExpireFits s'.clock → cfg.ExpireFits s.clock := by
    intro s e s' r hstep hgood
    have hle := Clocked.step_clock hstep
    unfold LimiterConfig.ExpireFits at hgood ⊢
    omega
  obtain ⟨m, hm, _⟩ := Trace.simulation (R := Simulates cfg) ⟨rfl, limitersAgree_start clock⟩ hclock
    (fun _ _ _ _ _ hrel hgood hstep => hrel.step hb hgood hstep) ht hfits
  exact ⟨m, hm⟩

/-- Five permits for each hour. -/
def sampleLimit : LimiterConfig := ⟨.debug, 5, 3600⟩

/-- Two replicas: the quota is used up, a first call on another identity is refused, and the next
hour starts over. -/
def sampleLimitRun : List (LimiterEvent × Option (Outcome RateLimitError Unit)) :=
  [(.consume 0 [1] 3, some (.ok ())), (.consume 1 [1] 2, some (.ok ())),
    (.consume 0 [1] 1, some (.err .exceeded)), (.consume 1 [2] 6, some (.err .exceeded)),
    (.consume 0 [2] 0, some (.ok ())), (.wait 3600000, none), (.consume 0 [1] 5, some (.ok ()))]

theorem redis_refines_memory_sample :
    ∃ m, Trace (Clocked.step (memoryTryConsume sampleLimit)) (memoryStart 7000) sampleLimitRun m :=
  redis_refines_memory (s := ⟨_, 3607000⟩) (by decide)
    (@Trace.of_exec _ _ _ _ (sampleLimitRun.map Prod.fst) _ _ _ rfl) (by decide)

end EatPass
