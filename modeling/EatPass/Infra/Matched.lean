import Mathlib.Algebra.Order.BigOperators.Group.List
import Mathlib.Algebra.Order.Group.Nat
import Mathlib.Algebra.Ring.Nat
import Mathlib.Data.List.Forall2
import Mathlib.Data.List.Perm.Subperm

/-!
# Matchings of lists

`Matched R l u`: every member of `l` has a member of `u` of its own that it is in the relation `R`
with. So `l` is not longer than `u`, and what one member of `u` stands for is not used twice.
-/

namespace Infra

variable {α β γ : Type} {R : α → β → Prop}

/-- A part of a list with fewer members keeps fewer of them. -/
theorem subperm_filterMap {l₁ l₂ : List α} (f : α → Option γ) (h : l₁.Subperm l₂) :
    (l₁.filterMap f).Subperm (l₂.filterMap f) := by
  obtain ⟨l, hperm, hsub⟩ := h
  exact ⟨l.filterMap f, hperm.filterMap f, hsub.filterMap f⟩

/-- A part of a list does not add up to more. -/
theorem sum_map_le_of_subperm {l₁ l₂ : List α} (f : α → Nat) (h : l₁.Subperm l₂) :
    (l₁.map f).sum ≤ (l₂.map f).sum := by
  obtain ⟨l, hperm, hsub⟩ := h
  rw [← (hperm.map f).sum_eq]
  exact (hsub.map f).sum_le_sum fun _ _ => Nat.zero_le _

def Matched (R : α → β → Prop) (l : List α) (u : List β) : Prop :=
  ∃ v, v.Subperm u ∧ List.Forall₂ R l v

namespace Matched

theorem mono_right {l : List α} {u u' : List β} (h : Matched R l u) (hu : u.Subperm u') :
    Matched R l u' := by
  obtain ⟨v, hv, hR⟩ := h
  exact ⟨v, hv.trans hu, hR⟩

theorem mono_left {l l' : List α} {u : List β} (h : Matched R l u) (hl : l'.Subperm l) :
    Matched R l' u := by
  obtain ⟨v, hv, hR⟩ := h
  obtain ⟨k, hperm, hsub⟩ := hl
  obtain ⟨w, hw, hwv⟩ : ∃ w, List.Forall₂ R k w ∧ w.Sublist v := by
    clear hperm hv
    induction hsub generalizing v with
    | slnil => exact ⟨[], .nil, List.nil_sublist _⟩
    | cons a _ ih =>
      cases hR with
      | cons _ hrest =>
        obtain ⟨w, hw, hwv⟩ := ih _ hrest
        exact ⟨w, hw, hwv.cons _⟩
    | cons_cons a _ ih =>
      cases hR with
      | cons hhead hrest =>
        obtain ⟨w, hw, hwv⟩ := ih _ hrest
        exact ⟨_, .cons hhead hw, hwv.cons_cons _⟩
  obtain ⟨x, hx, hxw⟩ := List.perm_comp_forall₂ hperm.symm hw
  exact ⟨x, (hxw.subperm.trans hwv.subperm).trans hv, hx⟩

/-- The relation may be weakened, also by what is known of the members of `u`. -/
theorem imp {S : α → β → Prop} {l : List α} {u : List β} (h : Matched R l u)
    (hRS : ∀ a b, b ∈ u → R a b → S a b) : Matched S l u := by
  obtain ⟨v, hv, hR⟩ := h
  refine ⟨v, hv, ?_⟩
  have hmem : ∀ b ∈ v, b ∈ u := fun b hb => hv.subset hb
  clear hv
  induction hR with
  | nil => exact .nil
  | cons hab _ ih =>
    exact .cons (hRS _ _ (hmem _ List.mem_cons_self) hab)
      (ih fun b hb => hmem b (List.mem_cons_of_mem _ hb))

theorem map_left {f : α → γ} {S : γ → β → Prop} {l : List α} {u : List β}
    (h : Matched (fun a b => S (f a) b) l u) : Matched S (l.map f) u := by
  obtain ⟨v, hv, hR⟩ := h
  exact ⟨v, hv, List.forall₂_map_left_iff.mpr hR⟩

end Matched

end Infra
