import Mathlib.Data.Set.Function

/-!
# Linear hash chains

A chain folds its entries into a running head with a step function. Which entries a head commits
to is a question about the step: if no two different pairs that the fold visits have the same
image, two chains of one length with one head have the same entries.

The step need not be injective as a function, and a hash never is. Only the pairs that are visited
count, so the assumption is `Set.InjOn` on a set that holds them.
-/

namespace Infra.HashChain

variable {δ α : Type} (step : δ → α → δ)

/-- The head after each entry, in order. -/
def heads (head : δ) : List α → List δ
  | [] => []
  | a :: rest => step head a :: heads (step head a) rest

/-- The pairs of a running head and the entry folded into it. -/
def visits (head : δ) : List α → List (δ × α)
  | [] => []
  | a :: rest => (head, a) :: visits (step head a) rest

variable {step}

@[simp] theorem heads_length : ∀ (entries : List α) (head : δ),
    (heads step head entries).length = entries.length
  | [], _ => rfl
  | a :: rest, head => by simp [heads, heads_length rest]

/-- The head after `i + 1` entries is the fold over them. -/
theorem heads_getElem? : ∀ (entries : List α) (head : δ) (i : Nat), i < entries.length →
    (heads step head entries)[i]? = some ((entries.take (i + 1)).foldl step head)
  | [], _, _, h => absurd h (by simp)
  | a :: rest, head, 0, _ => by simp [heads]
  | a :: rest, head, i + 1, h => by
    rw [heads, List.getElem?_cons_succ,
      heads_getElem? rest (step head a) i (by simpa using h)]
    rfl

theorem heads_getLast? (entries : List α) (head : δ) (h : entries ≠ []) :
    (heads step head entries).getLast? = some (entries.foldl step head) := by
  have hpos : 0 < entries.length := List.length_pos_iff.mpr h
  rw [List.getLast?_eq_getElem?, heads_length,
    heads_getElem? entries head (entries.length - 1) (by omega),
    show entries.length - 1 + 1 = entries.length by omega, List.take_length]

theorem visits_take_subset : ∀ (entries : List α) (head : δ) (n : Nat),
    visits step head (entries.take n) ⊆ visits step head entries
  | [], _, n => by simp [visits]
  | a :: rest, head, 0 => by simp [visits]
  | a :: rest, head, n + 1 => by
    simp only [List.take_succ_cons, visits]
    exact List.cons_subset_cons _ (visits_take_subset rest (step head a) n)

/--
**A head determines the entries below it.**

The induction runs along the chain from its start: the two folds agree at the end, so by the
hypothesis for the rest they agree after the first step, and the step is injective there.
-/
theorem eq_of_foldl_eq {S : Set (δ × α)} (hinj : Set.InjOn (fun p => step p.1 p.2) S) :
    ∀ (xs ys : List α) (d e : δ), xs.length = ys.length →
      (∀ p ∈ visits step d xs, p ∈ S) → (∀ p ∈ visits step e ys, p ∈ S) →
      xs.foldl step d = ys.foldl step e → d = e ∧ xs = ys := by
  intro xs
  induction xs with
  | nil =>
    intro ys d e hlen _ _ h
    have hys : ys = [] := List.length_eq_zero_iff.mp hlen.symm
    subst hys
    exact ⟨h, rfl⟩
  | cons x xs ih =>
    intro ys d e hlen hd he h
    cases ys with
    | nil => exact absurd hlen (by simp)
    | cons y ys =>
      have hrest := ih ys (step d x) (step e y) (by simpa using hlen)
        (fun p hp => hd p (List.mem_cons_of_mem _ hp))
        (fun p hp => he p (List.mem_cons_of_mem _ hp)) h
      have hpair : (d, x) = (e, y) :=
        hinj (hd _ List.mem_cons_self) (he _ List.mem_cons_self) hrest.1
      obtain ⟨rfl, rfl⟩ := Prod.mk.inj hpair
      exact ⟨rfl, by rw [hrest.2]⟩

end Infra.HashChain
