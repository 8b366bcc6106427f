import Mathlib.Data.List.Perm.Subperm
import Mathlib.Logic.Function.Basic
import EatPass.Infra.Trace

/-!
# Linearizability

Operations on a shared object overlap: a task asks for an operation, other tasks take their steps,
and some time later the task has its reply. An object is described by what its operations do when
they run one after the other (`spec`), and a system of tasks is linearizable if all that the tasks
see can be explained by such a sequential run, in an order that respects who had finished before
whom was started.

A step of the system shows a mark. `effect` is the point where an operation takes effect; no caller
sees it, and the sequential run is made of these points.

* `Follows` — what a step may do to the object and to the operations in flight
* `Implements.linearization` — a system whose every step follows the object is linearizable
* `Linearization.replies_subperm` — no reply is given that the sequential run does not have, and
  none is given more often
-/

namespace Infra

variable {σ ι α κ ε ρ : Type}

/-- What a step shows. A task is named by a number; `instant` is an operation that is asked for,
takes effect and is answered in one step. -/
inductive Mark (κ ε ρ : Type) where
  | silent
  | called (t : Nat) (k : κ)
  | effect (t : Nat) (e : ε) (r : ρ)
  | returned (t : Nat) (k : κ) (r : ρ)
  | instant (e : ε) (r : ρ)
deriving DecidableEq

/-- The operations in flight, with the reply of those that have taken effect. -/
abbrev InFlight (κ ρ : Type) := Nat → Option (κ × Option ρ)

/-! ## Who did what -/

/-- The part of one task of a list, in order. -/
def partOf {β : Type} (who : Option Nat) (l : List (Option Nat × β)) : List β :=
  l.filterMap fun x => if x.1 = who then some x.2 else none

@[simp] theorem partOf_nil {β : Type} (who : Option Nat) :
    partOf who ([] : List (Option Nat × β)) = [] := rfl

@[simp] theorem partOf_append {β : Type} (who : Option Nat) (l₁ l₂ : List (Option Nat × β)) :
    partOf who (l₁ ++ l₂) = partOf who l₁ ++ partOf who l₂ :=
  List.filterMap_append

theorem partOf_singleton {β : Type} (who w : Option Nat) (b : β) :
    partOf who [(w, b)] = if w = who then [b] else [] := by
  unfold partOf
  split
  · next h => simp [h]
  · next h => simp [h]

theorem count_partOf {β : Type} [DecidableEq β] (who : Option Nat) (b : β) :
    ∀ l : List (Option Nat × β), (partOf who l).count b = l.count (who, b)
  | [] => rfl
  | (w, c) :: l => by
    have ih := count_partOf who b l
    rw [← List.singleton_append, partOf_append, List.count_append, List.count_append, ih,
      partOf_singleton]
    congr 1
    by_cases hw : w = who
    · subst hw
      by_cases hc : c = b <;> simp [hc]
    · simp [hw]

/-- What holds of the parts holds of the lists: nothing is in the first more often than in the
second. -/
theorem subperm_of_partOf {β : Type} {l₁ l₂ : List (Option Nat × β)}
    (h : ∀ who, (partOf who l₁).Sublist (partOf who l₂)) : l₁.Subperm l₂ := by
  classical
  refine List.subperm_ext_iff.mpr fun ⟨who, b⟩ _ => ?_
  rw [← count_partOf, ← count_partOf]
  exact (h who).count_le b

theorem partOf_map_fst {β γ : Type} (who : Option Nat) (l : List (Option Nat × β × γ)) :
    partOf who (l.map fun x => (x.1, x.2.1)) = (partOf who l).map Prod.fst := by
  rw [partOf, List.filterMap_map, partOf, List.map_filterMap]
  congr 1
  funext x
  by_cases hx : x.1 = who <;> simp [hx]

section Marks

variable (op : ε → κ)

/-- The operation that is asked for in a step. -/
def Mark.call : Mark κ ε ρ → Option (Option Nat × κ)
  | .called t k => some (some t, k)
  | .instant e _ => some (none, op e)
  | _ => none

/-- The reply that is given in a step. -/
def Mark.reply : Mark κ ε ρ → Option (Option Nat × κ × ρ)
  | .returned t k r => some (some t, k, r)
  | .instant e r => some (none, op e, r)
  | _ => none

/-- The operation that takes effect in a step. -/
def Mark.point : Mark κ ε ρ → Option (Option Nat × ε × ρ)
  | .effect t e r => some (some t, e, r)
  | .instant e r => some (none, e, r)
  | _ => none

def calls (ms : List (Mark κ ε ρ)) : List (Option Nat × κ) := ms.filterMap (Mark.call op)

def replies (ms : List (Mark κ ε ρ)) : List (Option Nat × κ × ρ) := ms.filterMap (Mark.reply op)

def points (ms : List (Mark κ ε ρ)) : List (Option Nat × ε × ρ) := ms.filterMap Mark.point

/-- What a sequential run looks like to its callers. -/
def performed (q : List (Option Nat × ε × ρ)) : List (Option Nat × κ × ρ) :=
  q.map fun x => (x.1, op x.2.1, x.2.2)

theorem filterMap_snoc {β γ : Type} (g : β → Option γ) (l : List β) (x : β) :
    (l ++ [x]).filterMap g = l.filterMap g ++ (g x).toList := by
  rw [List.filterMap_append, List.filterMap_cons]
  cases g x <;> rfl

theorem calls_snoc (ms : List (Mark κ ε ρ)) (m : Mark κ ε ρ) :
    calls op (ms ++ [m]) = calls op ms ++ (m.call op).toList :=
  filterMap_snoc _ _ _

theorem replies_snoc (ms : List (Mark κ ε ρ)) (m : Mark κ ε ρ) :
    replies op (ms ++ [m]) = replies op ms ++ (m.reply op).toList :=
  filterMap_snoc _ _ _

theorem points_snoc (ms : List (Mark κ ε ρ)) (m : Mark κ ε ρ) :
    points (ms ++ [m]) = points ms ++ m.point.toList :=
  filterMap_snoc _ _ _

theorem points_append (ms₁ ms₂ : List (Mark κ ε ρ)) :
    points (ms₁ ++ ms₂) = points ms₁ ++ points ms₂ := List.filterMap_append

theorem performed_append (q₁ q₂ : List (Option Nat × ε × ρ)) :
    performed op (q₁ ++ q₂) = performed op q₁ ++ performed op q₂ := List.map_append

/-! ## Linearizations -/

/-- Task by task and in order: every reply that was given is one of the run, and every operation of
the run was asked for. -/
structure Consistent (ms : List (Mark κ ε ρ)) (q : List (Option Nat × ε × ρ)) : Prop where
  answered : ∀ who, partOf who (replies op ms) <+: partOf who (performed op q)
  asked : ∀ who, (partOf who (performed op q)).map Prod.fst <+: partOf who (calls op ms)

/--
`q` is a sequential run of the object that explains the marks. Wherever the marks are cut, the run
can be cut too: what was answered before the cut comes before it, and what is asked for after the
cut comes after it.
-/
structure Linearization (spec : α → ε → Option (α × ρ)) (a₀ : α) (ms : List (Mark κ ε ρ))
    (q : List (Option Nat × ε × ρ)) : Prop where
  legal : ∃ a, Trace spec a₀ (q.map Prod.snd) a
  consistent : Consistent op ms q
  ordered : ∀ ms₁ ms₂, ms = ms₁ ++ ms₂ → ∃ q₁ q₂, q = q₁ ++ q₂ ∧ Consistent op ms₁ q₁

variable {op}

/-- **No reply is given that the run does not have, and none is given more often.** -/
theorem Consistent.replies_subperm {ms : List (Mark κ ε ρ)} {q : List (Option Nat × ε × ρ)}
    (h : Consistent op ms q) : (replies op ms).Subperm (performed op q) :=
  subperm_of_partOf fun who => (h.answered who).sublist

/-- No operation is performed that was not asked for, and none is performed more often. -/
theorem Consistent.performed_subperm {ms : List (Mark κ ε ρ)} {q : List (Option Nat × ε × ρ)}
    (h : Consistent op ms q) :
    ((performed op q).map fun x => (x.1, x.2.1)).Subperm (calls op ms) := by
  refine subperm_of_partOf fun who => ?_
  rw [partOf_map_fst]
  exact (h.asked who).sublist

/-- A run explains the marks to whoever sees the object through `view`. -/
theorem Linearization.image {β : Type} {spec : α → ε → Option (α × ρ)}
    {spec' : β → ε → Option (β × ρ)} {a₀ : α} {ms : List (Mark κ ε ρ)}
    {q : List (Option Nat × ε × ρ)} (view : α → β)
    (hview : ∀ a e a' r, spec a e = some (a', r) → spec' (view a) e = some (view a', r))
    (h : Linearization op spec a₀ ms q) : Linearization op spec' (view a₀) ms q := by
  refine ⟨?_, h.consistent, h.ordered⟩
  obtain ⟨a, ht⟩ := h.legal
  obtain ⟨b, hb, -⟩ := Trace.simulation (R := fun a b => b = view a) (G := fun _ => True) rfl
    (fun _ _ _ _ _ _ => trivial)
    (fun a b e a' r hab _ hstep => ⟨view a', hab ▸ hview a e a' r hstep, rfl⟩) ht trivial
  exact ⟨b, hb⟩

/-! ## Systems that follow an object -/

/-- What a step with a mark may do to the object and to the operations in flight. -/
inductive Follows (spec : α → ε → Option (α × ρ)) (op : ε → κ) :
    α × InFlight κ ρ → Mark κ ε ρ → α × InFlight κ ρ → Prop
  | silent (a : α) (f : InFlight κ ρ) : Follows spec op (a, f) .silent (a, f)
  | called {a : α} {f : InFlight κ ρ} {t : Nat} {k : κ} (free : f t = none) :
      Follows spec op (a, f) (.called t k) (a, Function.update f t (some (k, none)))
  | effect {a a' : α} {f : InFlight κ ρ} {t : Nat} {e : ε} {r : ρ} (asked : f t = some (op e, none))
      (step : spec a e = some (a', r)) :
      Follows spec op (a, f) (.effect t e r) (a', Function.update f t (some (op e, some r)))
  | returned {a : α} {f : InFlight κ ρ} {t : Nat} {k : κ} {r : ρ} (done : f t = some (k, some r)) :
      Follows spec op (a, f) (.returned t k r) (a, Function.update f t none)
  | instant {a a' : α} {f : InFlight κ ρ} {e : ε} {r : ρ} (step : spec a e = some (a', r)) :
      Follows spec op (a, f) (.instant e r) (a', f)

/-- The operation of a task that has taken effect and is not answered yet. -/
def settled (f : InFlight κ ρ) : Option Nat → List (κ × ρ)
  | none => []
  | some t =>
    match f t with
    | some (k, some r) => [(k, r)]
    | _ => []

/-- The operation of a task that has not taken effect yet. -/
def waiting (f : InFlight κ ρ) : Option Nat → List κ
  | none => []
  | some t =>
    match f t with
    | some (k, none) => [k]
    | _ => []

/-- What the marks so far say about the object and the operations in flight. -/
structure Progress (spec : α → ε → Option (α × ρ)) (op : ε → κ) (a₀ : α) (ms : List (Mark κ ε ρ))
    (a : α) (f : InFlight κ ρ) : Prop where
  legal : Trace spec a₀ ((points ms).map Prod.snd) a
  answers : ∀ who,
    partOf who (performed op (points ms)) = partOf who (replies op ms) ++ settled f who
  asked : ∀ who,
    partOf who (calls op ms) = (partOf who (performed op (points ms))).map Prod.fst ++ waiting f who

variable {spec : α → ε → Option (α × ρ)} {op : ε → κ} {a₀ a : α} {ms : List (Mark κ ε ρ)}
  {f : InFlight κ ρ}

theorem Progress.init (hidle : ∀ t, f t = none) : Progress spec op a₀ [] a₀ f where
  legal := .init
  answers who := by
    cases who with
    | none => rfl
    | some t => simp [settled, hidle t, points, performed, replies]
  asked who := by
    cases who with
    | none => rfl
    | some t => simp [waiting, hidle t, points, performed, calls]

/-- What is in flight for the others is as before. -/
theorem settled_update_of_ne {t : Nat} {x : Option (κ × Option ρ)} {who : Option Nat}
    (h : some t ≠ who) : settled (Function.update f t x) who = settled f who := by
  cases who with
  | none => rfl
  | some u =>
    have hne : u ≠ t := fun hu => h (congrArg some hu.symm)
    simp only [settled, Function.update_of_ne hne]

theorem waiting_update_of_ne {t : Nat} {x : Option (κ × Option ρ)} {who : Option Nat}
    (h : some t ≠ who) : waiting (Function.update f t x) who = waiting f who := by
  cases who with
  | none => rfl
  | some u =>
    have hne : u ≠ t := fun hu => h (congrArg some hu.symm)
    simp only [waiting, Function.update_of_ne hne]

/-- What takes effect in a step is in flight after it, unless it is answered in the step. -/
theorem Follows.settled_eq {a' : α} {f' : InFlight κ ρ} {m : Mark κ ε ρ}
    (hf : Follows spec op (a, f) m (a', f')) (who : Option Nat) :
    settled f who ++ partOf who (performed op m.point.toList)
      = partOf who (m.reply op).toList ++ settled f' who := by
  cases hf with
  | silent => simp [Mark.point, Mark.reply, performed]
  | @called _ _ t k free =>
    by_cases hw : some t = who
    · subst hw
      simp [Mark.point, Mark.reply, performed, settled, free]
    · simp [Mark.point, Mark.reply, performed, settled_update_of_ne hw]
  | @effect _ _ _ t e r asked _ =>
    by_cases hw : some t = who
    · subst hw
      simp [Mark.point, Mark.reply, performed, settled, asked, partOf_singleton]
    · simp [Mark.point, Mark.reply, performed, settled_update_of_ne hw, partOf_singleton, hw]
  | @returned _ _ t k r done =>
    by_cases hw : some t = who
    · subst hw
      simp [Mark.point, Mark.reply, performed, settled, done, partOf_singleton]
    · simp [Mark.point, Mark.reply, performed, settled_update_of_ne hw, partOf_singleton, hw]
  | @instant _ _ _ e r _ =>
    cases who with
    | none => simp [Mark.point, Mark.reply, performed, settled]
    | some t => simp [Mark.point, Mark.reply, performed, partOf_singleton]

/-- What is asked for in a step waits after it, unless it takes effect in the step. -/
theorem Follows.waiting_eq {a' : α} {f' : InFlight κ ρ} {m : Mark κ ε ρ}
    (hf : Follows spec op (a, f) m (a', f')) (who : Option Nat) :
    waiting f who ++ partOf who (m.call op).toList
      = (partOf who (performed op m.point.toList)).map Prod.fst ++ waiting f' who := by
  cases hf with
  | silent => simp [Mark.point, Mark.call, performed]
  | @called _ _ t k free =>
    by_cases hw : some t = who
    · subst hw
      simp [Mark.point, Mark.call, performed, waiting, free, partOf_singleton]
    · simp [Mark.point, Mark.call, performed, waiting_update_of_ne hw, partOf_singleton, hw]
  | @effect _ _ _ t e r asked _ =>
    by_cases hw : some t = who
    · subst hw
      simp [Mark.point, Mark.call, performed, waiting, asked, partOf_singleton]
    · simp [Mark.point, Mark.call, performed, waiting_update_of_ne hw, partOf_singleton, hw]
  | @returned _ _ t k r done =>
    by_cases hw : some t = who
    · subst hw
      simp [Mark.point, Mark.call, performed, waiting, done]
    · simp [Mark.point, Mark.call, performed, waiting_update_of_ne hw]
  | @instant _ _ _ e r _ =>
    cases who with
    | none => simp [Mark.point, Mark.call, performed, waiting, partOf_singleton]
    | some t => simp [Mark.point, Mark.call, performed, partOf_singleton]

/-- A step moves the object exactly if an operation takes effect in it. -/
theorem Follows.trace {a' : α} {f' : InFlight κ ρ} {m : Mark κ ε ρ}
    (hf : Follows spec op (a, f) m (a', f')) {q : List (ε × ρ)} (hq : Trace spec a₀ q a) :
    Trace spec a₀ (q ++ m.point.toList.map Prod.snd) a' := by
  cases hf with
  | silent => simpa [Mark.point] using hq
  | called => simpa [Mark.point] using hq
  | effect _ hstep => exact .snoc hq hstep
  | returned => simpa [Mark.point] using hq
  | instant hstep => exact .snoc hq hstep

/-- **Every step that follows the object makes progress.** -/
theorem Progress.step {a' : α} {f' : InFlight κ ρ} {m : Mark κ ε ρ}
    (hp : Progress spec op a₀ ms a f) (hf : Follows spec op (a, f) m (a', f')) :
    Progress spec op a₀ (ms ++ [m]) a' f' where
  legal := by
    rw [points_snoc, List.map_append]
    exact hf.trace hp.legal
  answers who := by
    rw [points_snoc, performed_append, partOf_append, replies_snoc, partOf_append, hp.answers who,
      List.append_assoc, List.append_assoc, hf.settled_eq who]
  asked who := by
    rw [points_snoc, performed_append, partOf_append, calls_snoc, partOf_append, hp.asked who,
      List.map_append, List.append_assoc, List.append_assoc, hf.waiting_eq who]

theorem Progress.consistent (hp : Progress spec op a₀ ms a f) : Consistent op ms (points ms) where
  answered who := ⟨_, (hp.answers who).symm⟩
  asked who := ⟨_, (hp.asked who).symm⟩

/-- When nothing is in flight, everything that was performed has been answered. -/
theorem Progress.performed_subperm (hp : Progress spec op a₀ ms a f) (hidle : ∀ t, f t = none) :
    (performed op (points ms)).Subperm (replies op ms) := by
  refine subperm_of_partOf fun who => ?_
  rw [hp.answers who]
  cases who with
  | none => simp [settled]
  | some t => simp [settled, hidle t]

/-- ... and everything that was asked for has been performed. -/
theorem Progress.calls_subperm (hp : Progress spec op a₀ ms a f) (hidle : ∀ t, f t = none) :
    (calls op ms).Subperm ((performed op (points ms)).map fun x => (x.1, x.2.1)) := by
  refine subperm_of_partOf fun who => ?_
  rw [partOf_map_fst, hp.asked who]
  cases who with
  | none => simp [waiting]
  | some t => simp [waiting, hidle t]

/--
A system of tasks that implements an object: what of its state is the object, what is in flight,
and what holds of every state it gets into.
-/
structure Implements (spec : α → ε → Option (α × ρ)) (op : ε → κ)
    (step : σ → ι → Option (σ × Mark κ ε ρ)) where
  view : σ → α
  inFlight : σ → InFlight κ ρ
  Inv : σ → Prop
  keeps : ∀ {s i s' m}, Inv s → step s i = some (s', m) → Inv s'
  follows : ∀ {s i s' m}, Inv s → step s i = some (s', m) →
    Follows spec op (view s, inFlight s) m (view s', inFlight s')

namespace Implements

variable {step : σ → ι → Option (σ × Mark κ ε ρ)} (I : Implements spec op step) {s₀ s : σ}
  {h : List (ι × Mark κ ε ρ)}

theorem progress (hinit : I.Inv s₀) (hidle : ∀ t, I.inFlight s₀ t = none)
    (ht : Trace step s₀ h s) :
    I.Inv s ∧ Progress spec op (I.view s₀) (h.map Prod.snd) (I.view s) (I.inFlight s) := by
  refine Trace.invariant (fun h s => I.Inv s ∧ Progress spec op (I.view s₀) (h.map Prod.snd)
    (I.view s) (I.inFlight s)) ⟨hinit, .init hidle⟩ ?_ ht
  rintro h s i s' m - ⟨hinv, hp⟩ hstep
  rw [List.map_append]
  exact ⟨I.keeps hinv hstep, hp.step (I.follows hinv hstep)⟩

/-- **The rule of linearization.** What the tasks of an implementation see is explained by the
sequential run of its points of effect. -/
theorem linearization (hinit : I.Inv s₀) (hidle : ∀ t, I.inFlight s₀ t = none)
    (ht : Trace step s₀ h s) :
    Linearization op spec (I.view s₀) (h.map Prod.snd) (points (h.map Prod.snd)) := by
  obtain ⟨-, hp⟩ := I.progress hinit hidle ht
  refine ⟨⟨_, hp.legal⟩, hp.consistent, fun ms₁ ms₂ hcut => ?_⟩
  obtain ⟨h₁, h₂, rfl, rfl, rfl⟩ := List.map_eq_append_iff.mp hcut
  obtain ⟨s₁, ht₁, -⟩ := Trace.append_iff.mp ht
  obtain ⟨-, hp₁⟩ := I.progress hinit hidle ht₁
  refine ⟨points (h₁.map Prod.snd), points (h₂.map Prod.snd), ?_, hp₁.consistent⟩
  rw [List.map_append, points_append]

end Implements

end Marks

end Infra
