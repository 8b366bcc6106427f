import Mathlib.Data.List.Basic
import Mathlib.Data.List.Perm.Basic

/-!
# Decisions by the first match

A list of rules is searched for the first one that applies, and this one alone decides. The
decision depends on the order of the list as soon as two rules that apply decide differently.
-/

namespace Infra

variable {α : Type*} (applies decides : α → Bool)

/-- Some rule applies, and the first of those that do decides for it. -/
def firstMatch (l : List α) : Bool := (l.find? applies).any decides

variable {applies decides}

/-- Where all rules that apply decide alike, any of them tells the decision. -/
theorem firstMatch_eq_of_mem {l : List α} {a : α} (ha : a ∈ l) (happ : applies a = true)
    (halike : ∀ b ∈ l, applies b = true → decides b = decides a) :
    firstMatch applies decides l = decides a := by
  unfold firstMatch
  cases hfind : l.find? applies with
  | none => exact absurd happ (List.find?_eq_none.mp hfind a ha)
  | some b => exact halike b (List.mem_of_find?_eq_some hfind) (List.find?_some hfind)

theorem firstMatch_eq_false {l : List α} (h : ∀ a ∈ l, applies a = false) :
    firstMatch applies decides l = false := by
  have hnone : l.find? applies = none :=
    List.find?_eq_none.mpr fun a ha => by rw [h a ha]; exact Bool.false_ne_true
  rw [firstMatch, hnone, Option.any_none]

/-- **A decision by the first match is the same in every order exactly when all rules that apply
decide alike.** -/
theorem firstMatch_perm_iff {l : List α} :
    (∀ l', l.Perm l' → firstMatch applies decides l' = firstMatch applies decides l) ↔
      ∀ a ∈ l, ∀ b ∈ l, applies a = true → applies b = true → decides a = decides b := by
  constructor
  · intro h a ha b hb happA happB
    -- each of the two is put in front, where it decides
    have hfront : ∀ c ∈ l, applies c = true → firstMatch applies decides l = decides c := by
      intro c hc happ
      obtain ⟨before, after, rfl⟩ := List.append_of_mem hc
      rw [← h (c :: (before ++ after)) List.perm_middle, firstMatch, List.find?_cons_of_pos happ]
      rfl
    rw [← hfront a ha happA, ← hfront b hb happB]
  · intro halike l' hperm
    by_cases happ : ∃ a ∈ l, applies a = true
    · obtain ⟨a, ha, happ⟩ := happ
      rw [firstMatch_eq_of_mem ha happ fun b hb hbApp => halike b hb a ha hbApp happ,
        firstMatch_eq_of_mem (hperm.subset ha) happ fun b hb hbApp =>
          halike b (hperm.symm.subset hb) a ha hbApp happ]
    · have hnone : ∀ a ∈ l, applies a = false := fun a ha =>
        Bool.eq_false_iff.mpr fun happA => happ ⟨a, ha, happA⟩
      rw [firstMatch_eq_false hnone,
        firstMatch_eq_false fun a ha => hnone a (hperm.symm.subset ha)]

end Infra
