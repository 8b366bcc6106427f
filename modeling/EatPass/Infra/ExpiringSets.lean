import Mathlib.Data.Finset.Insert
import Mathlib.Data.Set.Basic

/-!
# Sets that expire as a whole

A key space maps keys to sets, and a set may have a time from which on it is gone. `sadd` and
`expire` are the two Redis commands on it: `sadd` starts a new set where there is none and keeps
the expiry time of a set that is there, `expire` moves the expiry time of a set that is there. The
clock counts milliseconds, the argument of `expire` seconds.

* `reply_sadd` — `sadd` answers 1 exactly when the member was not there
* `holds_sadd`, `holds_expire` — what is kept: `sadd` on an expired set is the only step that
  forgets
-/

namespace Infra

/-- A set and the time at which it expires. -/
structure ExpiringSet (μ : Type*) where
  members : Finset μ
  expiresAt : Option Int

variable {κ μ : Type*}

/-- From its expiry time on, the set is gone. -/
def ExpiringSet.expired (s : ExpiringSet μ) (now : Int) : Bool :=
  match s.expiresAt with
  | none => false
  | some t => decide (t ≤ now)

/-- A map from keys to sets. An expired set stays in it until a command notices. -/
abbrev KeySpace (κ μ : Type*) := κ → Option (ExpiringSet μ)

namespace KeySpace

/-- The set of a key, as a command sees it. -/
def read (db : KeySpace κ μ) (key : κ) (now : Int) : Option (ExpiringSet μ) :=
  (db key).filter fun s => !s.expired now

/-- The key has a set, and it is expired. -/
def Lapsed (db : KeySpace κ μ) (key : κ) (now : Int) : Prop :=
  ∃ s, db key = some s ∧ s.expired now = true

/-- The member is in the set of the key, expired or not. -/
def Holds (db : KeySpace κ μ) (key : κ) (member : μ) : Prop :=
  ∃ s, db key = some s ∧ member ∈ s.members

section Commands

variable [DecidableEq κ] [DecidableEq μ]

def write (db : KeySpace κ μ) (key : κ) (s : ExpiringSet μ) : KeySpace κ μ :=
  fun k => if k = key then some s else db k

/-- `SADD key member`: the key space and the number of members that were added. -/
def sadd (db : KeySpace κ μ) (key : κ) (member : μ) (now : Int) : KeySpace κ μ × Int :=
  match db.read key now with
  | none => (db.write key ⟨{member}, none⟩, 1)
  | some s =>
    if member ∈ s.members then (db, 0)
    else (db.write key { s with members := insert member s.members }, 1)

/-- `EXPIRE key seconds`. On a key without a set it does nothing. -/
def expire (db : KeySpace κ μ) (key : κ) (seconds : Int) (now : Int) : KeySpace κ μ :=
  match db.read key now with
  | none => db
  | some s => db.write key { s with expiresAt := some (now + 1000 * seconds) }

end Commands

/-! ## Reading -/

theorem read_eq_some {db : KeySpace κ μ} {key : κ} {now : Int} {s : ExpiringSet μ} :
    db.read key now = some s ↔ db key = some s ∧ s.expired now = false := by
  rw [read, Option.filter_eq_some_iff]
  simp

/-- What a command sees is what is held and not expired. -/
theorem holds_and_not_lapsed_iff {db : KeySpace κ μ} {key : κ} {member : μ} {now : Int} :
    db.Holds key member ∧ ¬ db.Lapsed key now ↔
      ∃ s, db.read key now = some s ∧ member ∈ s.members := by
  constructor
  · rintro ⟨⟨s, hs, hmem⟩, hlive⟩
    refine ⟨s, read_eq_some.mpr ⟨hs, ?_⟩, hmem⟩
    by_contra hexp
    exact hlive ⟨s, hs, by simpa using hexp⟩
  · rintro ⟨s, hs, hmem⟩
    obtain ⟨hs, hlive⟩ := read_eq_some.mp hs
    refine ⟨⟨s, hs, hmem⟩, ?_⟩
    rintro ⟨t, ht, hexp⟩
    rw [hs] at ht
    cases ht
    rw [hlive] at hexp
    cases hexp

/-! ## Commands -/

variable [DecidableEq κ] {db : KeySpace κ μ} {key : κ} {member : μ} {now : Int}

theorem holds_write {s : ExpiringSet μ} {key' : κ} {member' : μ} :
    (db.write key s).Holds key' member' ↔
      if key' = key then member' ∈ s.members else db.Holds key' member' := by
  by_cases hk : key' = key
  · simp [Holds, write, hk]
  · simp [Holds, write, hk]

/-- `expire` moves a time and forgets nothing. -/
theorem holds_expire {seconds : Int} {key' : κ} {member' : μ} :
    (db.expire key seconds now).Holds key' member' ↔ db.Holds key' member' := by
  rw [expire]
  cases hread : db.read key now with
  | none => exact Iff.rfl
  | some s =>
    have hs := (read_eq_some.mp hread).1
    rw [holds_write]
    by_cases hk : key' = key
    · subst hk
      simp [Holds, hs]
    · simp [hk]

variable [DecidableEq μ]

/-- `sadd` answers 1 exactly when the member is not in a set that is still there. -/
theorem reply_sadd :
    (db.sadd key member now).2 = 1 ↔ ¬ (db.Holds key member ∧ ¬ db.Lapsed key now) := by
  rw [holds_and_not_lapsed_iff, sadd]
  cases hread : db.read key now with
  | none => simp
  | some s =>
    by_cases hmem : member ∈ s.members
    · simp [hmem]
    · simp [hmem]

/-- After `sadd`, its own member is held, and everything else that was, unless the set it was in
had expired. -/
theorem holds_sadd {key' : κ} {member' : μ} :
    (db.sadd key member now).1.Holds key' member' ↔
      (key' = key ∧ member' = member) ∨
        (db.Holds key' member' ∧ ¬ (key' = key ∧ db.Lapsed key now)) := by
  by_cases hk : key' = key
  · subst hk
    rw [show (db.Holds key' member' ∧ ¬ (key' = key' ∧ db.Lapsed key' now)) ↔
      (db.Holds key' member' ∧ ¬ db.Lapsed key' now) by simp, holds_and_not_lapsed_iff, sadd]
    cases hread : db.read key' now with
    | none => simp [holds_write]
    | some s =>
      have hs := (read_eq_some.mp hread).1
      by_cases hmem : member ∈ s.members
      · -- nothing is written, so the member is held because it was
        simp only [hmem, if_true, Holds, hs]
        constructor
        · rintro ⟨t, ht, hm⟩
          exact .inr ⟨t, ht, hm⟩
        · rintro (⟨-, rfl⟩ | h)
          · exact ⟨s, rfl, hmem⟩
          · exact h
      · simp [hmem, holds_write]
  · have hframe : (db.sadd key member now).1 key' = db key' := by
      rw [sadd]
      split
      · simp [write, hk]
      · split
        · rfl
        · simp [write, hk]
    simp [Holds, hframe, hk]

end KeySpace

end Infra
