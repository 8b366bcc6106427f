import Mathlib.Logic.Function.Basic
import EatPass.Infra.Outcome

/-!
# Rate limiting

`core/src/ratelimit.rs`. Issuance is capped for each attestation identity and epoch. The guard of
the in-memory limiter adds with saturation and its update adds plainly, so at the largest cap the
guard lets a sum through that the update cannot hold; what happens then depends on the build
profile, and a panic leaves the mutex poisoned.
-/

namespace EatPass

open Infra

inductive RateLimitError where
  | exceeded
  | backend (what : String)
deriving DecidableEq

/-- `RateLimiter`: what it keeps, and `try_consume` at the time it reads from its clock. -/
structure RateLimiter where
  State : Type
  tryConsume : State → UInt64 → List UInt8 → UInt32 → State × Outcome RateLimitError Unit

/-- `NoLimit`. -/
def noLimit : RateLimiter where
  State := Unit
  tryConsume _ _ _ _ := ((), .ok ())

/-- `saturating_add` on `u32`. -/
def saturatingAddU32 (a b : UInt32) : UInt32 :=
  if a.toNat + b.toNat < 2 ^ 32 then a + b else UInt32.ofNat (2 ^ 32 - 1)

/-- What an in-memory limiter is built with. -/
structure LimiterConfig where
  profile : Profile
  maxPerEpoch : UInt32
  epochSecs : UInt64

/-- The counters by epoch and attestation identity; an absent entry counts nothing. -/
abbrev Counters := UInt64 × List UInt8 → UInt32

/-- The mutex of `InMemoryRateLimiter` and what it guards. -/
structure InMemoryRateLimiter where
  state : Counters
  poisoned : Bool

namespace InMemoryRateLimiter

/-- `InMemoryRateLimiter::new`. -/
def new : InMemoryRateLimiter := ⟨fun _ => 0, false⟩

variable (cfg : LimiterConfig)

/-- `current_epoch`; `new` has replaced an epoch of no seconds by one second. -/
def currentEpoch (now : UInt64) : UInt64 := now / max cfg.epochSecs 1

/-- `try_consume_at`. -/
def tryConsumeAt (s : InMemoryRateLimiter) (epoch : UInt64) (attestationId : List UInt8)
    (n : UInt32) : InMemoryRateLimiter × Outcome RateLimitError Unit :=
  if s.poisoned then (s, .panic)
  else
    let used := s.state (epoch, attestationId)
    if cfg.maxPerEpoch < saturatingAddU32 used n then (s, .err .exceeded)
    else match addU32 cfg.profile used n with
      | .ok sum =>
        ({ s with state := Function.update s.state (epoch, attestationId) sum }, .ok ())
      | .err e => (s, .err e)
      | .panic => ({ s with poisoned := true }, .panic)

/-- `prune_before`; `none` is a panic on the poisoned mutex. -/
def pruneBefore (s : InMemoryRateLimiter) (keepFrom : UInt64) : Option InMemoryRateLimiter :=
  if s.poisoned then none
  else some { s with state := fun key => if keepFrom ≤ key.1 then s.state key else 0 }

end InMemoryRateLimiter

/-- The limiter an issuer uses; `try_consume` reads the clock. -/
def inMemoryRateLimiter (cfg : LimiterConfig) : RateLimiter where
  State := InMemoryRateLimiter
  tryConsume s now := s.tryConsumeAt cfg (InMemoryRateLimiter.currentEpoch cfg now)

/-- The cap is below the largest `u32`. -/
def LimiterConfig.Bounded (cfg : LimiterConfig) : Prop := cfg.maxPerEpoch.toNat < 2 ^ 32 - 1

instance (cfg : LimiterConfig) : Decidable cfg.Bounded :=
  inferInstanceAs (Decidable (cfg.maxPerEpoch.toNat < 2 ^ 32 - 1))

/-- A sum that the guard lets through fits, if the cap is below the largest `u32`. -/
theorem add_le_of_saturating {cfg : LimiterConfig} (hb : cfg.Bounded) (used n : UInt32) :
    ¬ cfg.maxPerEpoch < saturatingAddU32 used n ↔
      used.toNat + n.toNat ≤ cfg.maxPerEpoch.toNat := by
  have hmax : (UInt32.ofNat (2 ^ 32 - 1)).toNat = 2 ^ 32 - 1 := rfl
  unfold LimiterConfig.Bounded at hb
  rw [UInt32.not_lt, UInt32.le_iff_toNat_le, saturatingAddU32]
  split
  · next hlt =>
    rw [UInt32.toNat_add, Nat.mod_eq_of_lt hlt]
  · next hge =>
    rw [hmax]
    omega

/-- **What a call does below the largest cap**: it adds what fits under the cap, and refuses the
rest. -/
theorem InMemoryRateLimiter.tryConsumeAt_eq {cfg : LimiterConfig} (hb : cfg.Bounded)
    {s : InMemoryRateLimiter} (hs : s.poisoned = false) (epoch : UInt64)
    (attestationId : List UInt8) (n : UInt32) :
    s.tryConsumeAt cfg epoch attestationId n =
      if (s.state (epoch, attestationId)).toNat + n.toNat ≤ cfg.maxPerEpoch.toNat then
        (⟨Function.update s.state (epoch, attestationId) (s.state (epoch, attestationId) + n),
          false⟩, .ok ())
      else (s, .err .exceeded) := by
  have hguard := add_le_of_saturating hb (s.state (epoch, attestationId)) n
  simp only [tryConsumeAt, hs, Bool.false_eq_true, if_false]
  by_cases hfits : (s.state (epoch, attestationId)).toNat + n.toNat ≤ cfg.maxPerEpoch.toNat
  · have hsum : (s.state (epoch, attestationId)).toNat + n.toNat < 2 ^ 32 := by
      have := cfg.maxPerEpoch.toNat_lt
      omega
    rw [if_neg (hguard.mpr hfits), if_pos hfits, addU32_of_lt _ hsum]
  · rw [if_pos (not_not.mp fun h => hfits (hguard.mp h)), if_neg hfits]

end EatPass
