import Mathlib.Data.List.Induction

/-!
# Runs of a transition system

A system is a partial step function: `step s e` is `none` when the event `e` cannot happen in `s`,
and otherwise gives the next state and what the event makes visible. A run is recorded as the list
of its events with what they made visible, oldest first, so a property of a run may speak about
answers that were given earlier.
-/

namespace Infra

variable {σ ε ρ : Type*}

/-- A property of every element and what comes before it, for a list that got one longer. -/
theorem forall_split_snoc {α : Type} {P : List α → α → Prop} {l : List α} {y : α} :
    (∀ before x after, l ++ [y] = before ++ x :: after → P before x) ↔
      (∀ before x after, l = before ++ x :: after → P before x) ∧ P l y := by
  constructor
  · intro h
    refine ⟨fun before x after hl => ?_, h l y [] rfl⟩
    exact h before x (after ++ [y]) (by rw [hl, List.append_assoc]; rfl)
  · rintro ⟨h, hlast⟩ before x after hl
    rcases List.eq_nil_or_concat after with rfl | ⟨after', z, rfl⟩
    · obtain ⟨rfl, hx⟩ := List.append_inj' hl rfl
      cases hx
      exact hlast
    · rw [List.concat_eq_append, ← List.cons_append, ← List.append_assoc] at hl
      exact h before x after' (List.append_inj' hl rfl).1

/-- `Trace step s₀ h s`: the run `h` leads from `s₀` to `s`. -/
inductive Trace (step : σ → ε → Option (σ × ρ)) (s₀ : σ) : List (ε × ρ) → σ → Prop
  | init : Trace step s₀ [] s₀
  | snoc {h : List (ε × ρ)} {s s' : σ} {e : ε} {r : ρ} :
      Trace step s₀ h s → step s e = some (s', r) → Trace step s₀ (h ++ [(e, r)]) s'

/-- Runs a list of events. -/
def exec (step : σ → ε → Option (σ × ρ)) : σ → List ε → Option (σ × List (ε × ρ))
  | s, [] => some (s, [])
  | s, e :: rest =>
    match step s e with
    | none => none
    | some (s', r) => (exec step s' rest).map fun (t, h) => (t, (e, r) :: h)

namespace Trace

variable {step : σ → ε → Option (σ × ρ)} {s₀ : σ}

/--
**The invariant rule.** What holds at the start with an empty history, and is carried over every
step to the longer history, holds after every run.
-/
theorem invariant (Inv : List (ε × ρ) → σ → Prop) (hinit : Inv [] s₀)
    (hstep : ∀ h s e s' r, Trace step s₀ h s → Inv h s → step s e = some (s', r) →
      Inv (h ++ [(e, r)]) s') :
    ∀ {h : List (ε × ρ)} {s : σ}, Trace step s₀ h s → Inv h s := by
  intro h s ht
  induction ht with
  | init => exact hinit
  | snoc ht hs ih => exact hstep _ _ _ _ _ ht ih hs

/--
**The frame rule.** What the events of a kind leave true is true after a run of such events, from
any state.
-/
theorem preserves {I : σ → Prop} {Q : ε × ρ → Prop}
    (hstep : ∀ s e s' r, I s → Q (e, r) → step s e = some (s', r) → I s') (hinit : I s₀)
    {h : List (ε × ρ)} {s : σ} (ht : Trace step s₀ h s) (hQ : ∀ x ∈ h, Q x) : I s := by
  induction ht with
  | init => exact hinit
  | snoc _ hs ih =>
    have hlast := hQ _ (List.mem_append_right _ (List.mem_singleton_self _))
    exact hstep _ _ _ _ (ih fun x hx => hQ x (List.mem_append_left _ hx)) hlast hs

theorem nil_iff {s : σ} : Trace step s₀ [] s ↔ s = s₀ := by
  constructor
  · intro ht
    generalize hk : ([] : List (ε × ρ)) = k at ht
    cases ht with
    | init => rfl
    | snoc ht hs => exact absurd hk (by simp)
  · rintro rfl
    exact .init

/-- The last step of a run. -/
theorem snoc_iff {h : List (ε × ρ)} {e : ε} {r : ρ} {s' : σ} :
    Trace step s₀ (h ++ [(e, r)]) s' ↔ ∃ s, Trace step s₀ h s ∧ step s e = some (s', r) := by
  constructor
  · intro ht
    generalize hk : h ++ [(e, r)] = k at ht
    cases ht with
    | init => exact absurd hk (by simp)
    | snoc ht hs =>
      obtain ⟨rfl, he⟩ := List.append_inj' hk rfl
      cases he
      exact ⟨_, ht, hs⟩
  · rintro ⟨s, ht, hs⟩
    exact .snoc ht hs

/-- A run can be cut anywhere. -/
theorem append_iff {h₁ h₂ : List (ε × ρ)} {s : σ} :
    Trace step s₀ (h₁ ++ h₂) s ↔ ∃ s₁, Trace step s₀ h₁ s₁ ∧ Trace step s₁ h₂ s := by
  induction h₂ using List.reverseRecOn generalizing s with
  | nil => simp [nil_iff]
  | append_singleton h₂ x ih =>
    obtain ⟨e, r⟩ := x
    rw [← List.append_assoc, snoc_iff]
    simp only [ih, snoc_iff]
    constructor
    · rintro ⟨t, ⟨s₁, h1, h2⟩, hs⟩
      exact ⟨s₁, h1, t, h2, hs⟩
    · rintro ⟨s₁, h1, t, h2, hs⟩
      exact ⟨t, ⟨s₁, h1, h2⟩, hs⟩

/-- The step in the middle of a run, with what comes before and after it. -/
theorem split_iff {h₁ h₂ : List (ε × ρ)} {e : ε} {r : ρ} {s : σ} :
    Trace step s₀ (h₁ ++ (e, r) :: h₂) s ↔
      ∃ s₁ s₂, Trace step s₀ h₁ s₁ ∧ step s₁ e = some (s₂, r) ∧ Trace step s₂ h₂ s := by
  rw [← List.singleton_append, ← List.append_assoc, append_iff]
  constructor
  · rintro ⟨s₂, h12, h2⟩
    obtain ⟨s₁, h1, hs⟩ := snoc_iff.mp h12
    exact ⟨s₁, s₂, h1, hs, h2⟩
  · rintro ⟨s₁, s₂, h1, hs, h2⟩
    exact ⟨s₂, snoc_iff.mpr ⟨s₁, h1, hs⟩, h2⟩

/-- The state after a run is determined by the run. -/
theorem state_unique {h : List (ε × ρ)} {s t : σ} (hs : Trace step s₀ h s)
    (ht : Trace step s₀ h t) : s = t := by
  induction hs generalizing t with
  | init => exact (nil_iff.mp ht).symm
  | snoc _ hstep ih =>
    obtain ⟨u, hu, hstep'⟩ := snoc_iff.mp ht
    rw [← ih hu, hstep] at hstep'
    exact congrArg Prod.fst (Option.some.inj hstep')

/--
**The simulation rule.** Where every step is matched by a step of another system with the same
event and the same reply, every run is a run of the other system. Only the steps into good states
(`G`) need to be matched, if a state that is not good is never left for one that is.
-/
theorem simulation {τ : Type*} {step' : τ → ε → Option (τ × ρ)} {t₀ : τ} {R : σ → τ → Prop}
    {G : σ → Prop} (hinit : R s₀ t₀)
    (hgood : ∀ s e s' r, step s e = some (s', r) → G s' → G s)
    (hstep : ∀ s t e s' r, R s t → G s' → step s e = some (s', r) →
      ∃ t', step' t e = some (t', r) ∧ R s' t')
    {h : List (ε × ρ)} {s : σ} (ht : Trace step s₀ h s) (hs : G s) :
    ∃ t, Trace step' t₀ h t ∧ R s t := by
  induction ht with
  | init => exact ⟨t₀, .init, hinit⟩
  | snoc _ hlast ih =>
    obtain ⟨t, htrace, hrel⟩ := ih (hgood _ _ _ _ hlast hs)
    obtain ⟨t', hmatch, hrel'⟩ := hstep _ _ _ _ _ hrel hs hlast
    exact ⟨t', .snoc htrace hmatch, hrel'⟩

/-- What `exec` computes is a run. -/
theorem of_exec : ∀ {es : List ε} {s₀ s : σ} {h : List (ε × ρ)},
    exec step s₀ es = some (s, h) → Trace step s₀ h s
  | [], s₀, s, h, he => by
    simp only [exec, Option.some.injEq, Prod.mk.injEq] at he
    obtain ⟨rfl, rfl⟩ := he
    exact .init
  | e :: rest, s₀, s, h, he => by
    rw [exec] at he
    cases hs : step s₀ e with
    | none => simp [hs] at he
    | some p =>
      obtain ⟨s', r⟩ := p
      simp only [hs, Option.map_eq_some_iff, Prod.mk.injEq] at he
      obtain ⟨⟨t, k⟩, hk, rfl, rfl⟩ := he
      rw [← List.singleton_append, append_iff]
      exact ⟨s', .snoc .init hs, of_exec hk⟩

end Trace

end Infra
