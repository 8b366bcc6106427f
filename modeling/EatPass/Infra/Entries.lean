import Mathlib.Algebra.Ring.Nat
import Mathlib.Data.List.DropRight
import EatPass.Infra.Trace

/-!
# Tables with entries that are cleared

A state may be looked at as a table: each key has an entry, which is absent at first. An event
leaves an entry alone, clears it or applies an operation to it. An entry is then what was applied to
it since it was last cleared, whatever happened to the other entries.

* `EntriesOf.view_eq` — the entry of a key after a run
* `mem_sinceCleared` — what has been applied since
-/

namespace Infra

/-- What an event does to one entry. -/
inductive Effect (ω : Type*) where
  | keep
  | clear
  | apply (o : ω)

variable {α β ω : Type*}

namespace Effect

def clears : Effect ω → Bool
  | clear => true
  | _ => false

def op : Effect ω → Option ω
  | apply o => some o
  | _ => none

/-- The entry after the event. -/
def on (absent : β) (next : β → ω → β) (b : β) : Effect ω → β
  | keep => b
  | clear => absent
  | apply o => next b o

end Effect

/-! ## Since the last time -/

/-- What was applied to an entry since it was last cleared, oldest first. -/
def sinceCleared (effect : α → Effect ω) (h : List α) : List ω :=
  (h.rtakeWhile fun x => !(effect x).clears).filterMap fun x => (effect x).op

/-- How often the entry was cleared. -/
def clearings (effect : α → Effect ω) (h : List α) : Nat := h.countP fun x => (effect x).clears

/-- All that was ever applied to the entry. -/
def applied (effect : α → Effect ω) (h : List α) : List ω := h.filterMap fun x => (effect x).op

variable {effect : α → Effect ω} {h : List α} {x : α}

theorem sinceCleared_keep (hx : effect x = .keep) :
    sinceCleared effect (h ++ [x]) = sinceCleared effect h := by
  simp [sinceCleared, hx, Effect.clears, Effect.op]

theorem sinceCleared_clear (hx : effect x = .clear) : sinceCleared effect (h ++ [x]) = [] := by
  simp [sinceCleared, hx, Effect.clears]

theorem sinceCleared_apply {o : ω} (hx : effect x = .apply o) :
    sinceCleared effect (h ++ [x]) = sinceCleared effect h ++ [o] := by
  simp [sinceCleared, hx, Effect.clears, Effect.op]

theorem applied_snoc (effect : α → Effect ω) (h : List α) (x : α) :
    applied effect (h ++ [x]) = applied effect h ++ (effect x).op.toList := by
  rw [applied, List.filterMap_append, List.filterMap_cons]
  cases (effect x).op <;> rfl

theorem clearings_snoc (effect : α → Effect ω) (h : List α) (x : α) :
    clearings effect (h ++ [x]) = clearings effect h + if (effect x).clears then 1 else 0 := by
  rw [clearings, List.countP_append, List.countP_singleton]
  rfl

theorem mem_sinceCleared {o : ω} :
    o ∈ sinceCleared effect h ↔
      ∃ before x after, h = before ++ x :: after ∧ effect x = .apply o ∧
        ∀ y ∈ after, effect y ≠ .clear := by
  induction h using List.reverseRecOn with
  | nil => simp [sinceCleared]
  | append_singleton h z ih =>
    constructor
    · intro ho
      cases hz : effect z with
      | keep =>
        rw [sinceCleared_keep hz, ih] at ho
        obtain ⟨before, x, after, rfl, hx, hafter⟩ := ho
        refine ⟨before, x, after ++ [z], by simp, hx, fun y hy => ?_⟩
        rcases List.mem_append.mp hy with hy | hy
        · exact hafter y hy
        · rw [List.mem_singleton.mp hy, hz]
          simp
      | clear =>
        rw [sinceCleared_clear hz] at ho
        cases ho
      | apply p =>
        rw [sinceCleared_apply hz, List.mem_append] at ho
        rcases ho with ho | ho
        · obtain ⟨before, x, after, rfl, hx, hafter⟩ := ih.mp ho
          refine ⟨before, x, after ++ [z], by simp, hx, fun y hy => ?_⟩
          rcases List.mem_append.mp hy with hy | hy
          · exact hafter y hy
          · rw [List.mem_singleton.mp hy, hz]
            simp
        · rw [List.mem_singleton.mp ho]
          exact ⟨h, z, [], rfl, hz, by simp⟩
    · rintro ⟨before, x, after, hsplit, hx, hafter⟩
      rcases List.eq_nil_or_concat after with rfl | ⟨after', y, rfl⟩
      · obtain ⟨-, hlast⟩ := List.append_inj' hsplit rfl
        cases hlast
        rw [sinceCleared_apply hx]
        exact List.mem_append_right _ (List.mem_singleton_self o)
      · rw [List.concat_eq_append, ← List.cons_append, ← List.append_assoc] at hsplit
        obtain ⟨rfl, hlast⟩ := List.append_inj' hsplit rfl
        cases hlast
        have ho := ih.mpr ⟨before, x, after', rfl, hx, fun w hw => hafter w (by simp [hw])⟩
        have hz : effect z ≠ .clear := hafter z (by simp)
        cases hz' : effect z with
        | keep => rwa [sinceCleared_keep hz']
        | clear => exact absurd hz' hz
        | apply p =>
          rw [sinceCleared_apply hz']
          exact List.mem_append_left _ ho

/-! ## Runs -/

variable {σ ε ρ κ : Type*}

/-- The reachable states of a system are tables: `view` is the entry of a key, and `effect` what an
event with its reply does to it. -/
structure EntriesOf (step : σ → ε → Option (σ × ρ)) (s₀ : σ) (view : σ → κ → β) (absent : β)
    (next : β → ω → β) (effect : κ → ε × ρ → Effect ω) : Prop where
  init : ∀ k, view s₀ k = absent
  step : ∀ {h s e s' r}, Trace step s₀ h s → step s e = some (s', r) →
    ∀ k, view s' k = (effect k (e, r)).on absent next (view s k)

/-- **An entry is what was applied to it since it was last cleared.** -/
theorem EntriesOf.view_eq {step : σ → ε → Option (σ × ρ)} {s₀ : σ} {view : σ → κ → β} {absent : β}
    {next : β → ω → β} {effect : κ → ε × ρ → Effect ω}
    (hE : EntriesOf step s₀ view absent next effect) {h : List (ε × ρ)} {s : σ}
    (ht : Trace step s₀ h s) (k : κ) :
    view s k = (sinceCleared (effect k) h).foldl next absent := by
  induction ht with
  | init => exact hE.init k
  | @snoc h s s' e r ht hstep ih =>
    rw [hE.step ht hstep k, ih]
    cases hk : effect k (e, r) with
    | keep => rw [sinceCleared_keep hk, Effect.on]
    | clear => rw [sinceCleared_clear hk, Effect.on, List.foldl_nil]
    | apply o => rw [sinceCleared_apply hk, Effect.on, List.foldl_append, List.foldl_cons,
        List.foldl_nil]

/-- Where each stretch between two clearings adds up to at most `m`, so does everything, as often
as the entry was cleared and once more. -/
theorem sum_applied_le {effect : α → Effect Nat} {m : Nat} :
    ∀ {h : List α}, (∀ before, before <+: h → (sinceCleared effect before).sum ≤ m) →
      (applied effect h).sum ≤ m * clearings effect h + (sinceCleared effect h).sum := by
  intro h
  induction h using List.reverseRecOn with
  | nil => simp [applied]
  | append_singleton h x ih =>
    intro hbound
    have ih := ih fun before hpre => hbound before (hpre.trans (List.prefix_append h [x]))
    have hh := hbound h (List.prefix_append h [x])
    rw [applied_snoc, clearings_snoc, List.sum_append]
    cases hx : effect x with
    | keep =>
      rw [sinceCleared_keep hx]
      exact ih
    | clear =>
      rw [sinceCleared_clear hx]
      show _ + 0 ≤ m * (clearings effect h + 1) + 0
      rw [Nat.mul_add]
      omega
    | apply o =>
      rw [sinceCleared_apply hx, List.sum_append]
      show _ + (o + 0) ≤ m * clearings effect h + (_ + (o + 0))
      omega

end Infra
