import Mathlib.Algebra.Ring.Int.Defs
import Mathlib.Tactic.Common

/-!
# Counters that expire

A key space maps keys to integers, and a counter may have a time from which on it is gone. `incrBy`
and `decrBy` start from 0 where there is no counter and keep the expiry time of a counter that is
there; `expire` moves the expiry time of a counter that is there. Each of them is refused when a
number leaves the signed 64-bit range. The clock counts milliseconds, the argument of `expire`
seconds.

* `incrBy_eq_some` — the first command on a counter
* `incrBy_write`, `expire_write` — the commands that follow it in one transaction
-/

namespace Infra

/-- A counter and the time at which it expires. -/
structure ExpiringCounter where
  value : Int
  expiresAt : Option Int
deriving DecidableEq

/-- From its expiry time on, the counter is gone. -/
def ExpiringCounter.expired (c : ExpiringCounter) (now : Int) : Bool :=
  match c.expiresAt with
  | none => false
  | some t => decide (t ≤ now)

/-- A map from keys to counters. An expired counter stays in it until a command notices. -/
abbrev CounterSpace (κ : Type*) := κ → Option ExpiringCounter

/-- The integer is in the range of `i64`. -/
def InI64 (x : Int) : Prop := -(2 ^ 63) ≤ x ∧ x < 2 ^ 63

instance (x : Int) : Decidable (InI64 x) :=
  inferInstanceAs (Decidable (-(2 ^ 63) ≤ x ∧ x < 2 ^ 63))

namespace CounterSpace

variable {κ : Type*}

/-- The counter of a key, as a command sees it. -/
def read (db : CounterSpace κ) (key : κ) (now : Int) : Option ExpiringCounter :=
  (db key).filter fun c => !c.expired now

/-- The counter a command starts from. -/
def counter (db : CounterSpace κ) (key : κ) (now : Int) : ExpiringCounter :=
  (db.read key now).getD ⟨0, none⟩

section Commands

variable [DecidableEq κ]

def write (db : CounterSpace κ) (key : κ) (c : ExpiringCounter) : CounterSpace κ :=
  fun k => if k = key then some c else db k

/-- `INCRBY key n`: the key space and the new value. -/
def incrBy (db : CounterSpace κ) (key : κ) (n now : Int) : Option (CounterSpace κ × Int) :=
  let c := db.counter key now
  if InI64 (c.value + n) then
    some (db.write key { c with value := c.value + n }, c.value + n)
  else none

/-- `DECRBY key n`. -/
def decrBy (db : CounterSpace κ) (key : κ) (n now : Int) : Option (CounterSpace κ × Int) :=
  db.incrBy key (-n) now

/-- `EXPIRE key seconds`. On a key without a counter it does nothing. -/
def expire (db : CounterSpace κ) (key : κ) (seconds now : Int) : Option (CounterSpace κ) :=
  if InI64 (1000 * seconds) ∧ InI64 (now + 1000 * seconds) then
    match db.read key now with
    | none => some db
    | some c => some (db.write key { c with expiresAt := some (now + 1000 * seconds) })
  else none

end Commands

/-! ## Reading -/

theorem read_eq_some {db : CounterSpace κ} {key : κ} {now : Int} {c : ExpiringCounter} :
    db.read key now = some c ↔ db key = some c ∧ c.expired now = false := by
  rw [read, Option.filter_eq_some_iff]
  simp

/-- A counter that a command starts from has not expired. -/
theorem expired_counter (db : CounterSpace κ) (key : κ) (now : Int) :
    (db.counter key now).expired now = false := by
  unfold counter
  cases hread : db.read key now with
  | none => rfl
  | some c => exact (read_eq_some.mp hread).2

theorem counter_of_some {db : CounterSpace κ} {key : κ} {now : Int} {c : ExpiringCounter}
    (h : db key = some c) (hlive : c.expired now = false) : db.counter key now = c := by
  rw [counter, read_eq_some.mpr ⟨h, hlive⟩]
  rfl

theorem counter_of_none {db : CounterSpace κ} {key : κ} {now : Int} (h : db key = none) :
    db.counter key now = ⟨0, none⟩ := by
  rw [counter, read, h]
  rfl

/-! ## Commands -/

variable [DecidableEq κ] {db : CounterSpace κ} {key : κ} {now : Int}

@[simp] theorem write_self (c : ExpiringCounter) : db.write key c key = some c := by
  simp [write]

theorem write_of_ne {c : ExpiringCounter} {key' : κ} (h : key' ≠ key) :
    db.write key c key' = db key' := by
  simp [write, h]

@[simp] theorem write_write (c d : ExpiringCounter) :
    (db.write key c).write key d = db.write key d := by
  funext k
  by_cases hk : k = key
  · simp [write, hk]
  · simp [write, hk]

/-- **Adding to a counter.** -/
theorem incrBy_eq_some {n : Int} {c : ExpiringCounter} (hc : db.counter key now = c)
    (h : InI64 (c.value + n)) :
    db.incrBy key n now = some (db.write key { c with value := c.value + n }, c.value + n) := by
  unfold incrBy
  rw [hc, if_pos h]

/-- **Adding to a counter that was just written.** -/
theorem incrBy_write {n : Int} {c : ExpiringCounter} (hlive : c.expired now = false)
    (h : InI64 (c.value + n)) :
    (db.write key c).incrBy key n now
      = some (db.write key { c with value := c.value + n }, c.value + n) := by
  rw [incrBy_eq_some (counter_of_some (write_self c) hlive) h, write_write]

/-- **Moving the expiry time of a counter that was just written.** -/
theorem expire_write {seconds : Int} {c : ExpiringCounter} (hlive : c.expired now = false)
    (h : InI64 (1000 * seconds) ∧ InI64 (now + 1000 * seconds)) :
    (db.write key c).expire key seconds now
      = some (db.write key { c with expiresAt := some (now + 1000 * seconds) }) := by
  unfold expire
  rw [if_pos h, read_eq_some.mpr ⟨write_self c, hlive⟩]
  simp

end CounterSpace

end Infra
