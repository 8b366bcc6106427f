import Mathlib.Logic.Function.Basic
import EatPass.Infra.Talk
import EatPass.Infra.Trace

/-!
# Programs with a server in common

Programs run side by side, in any interleaving of their questions. A question is for the outside,
where any answer may come back, or a call on the one server they share.

* `Crowd.step_cases` — what a step can do
* `Crowd.member_speaks` — what a member of the crowd has said is a conversation of its own program
* `Crowd.length_calls` — each of its calls was served once, with a chance of its own
* `Owned.put`, `Owned.drop` — a table of the server in which every entry belongs to one member
-/

namespace Infra

variable {Q K : Type} {A : Q → Type} {R : K → Type} {P ε α : Type}

/-- A program that asks the outside, and calls a server. -/
abbrev Caller (A : Q → Type) (R : K → Type) (ε α : Type) := Talk (Q ⊕ K) (Sum.elim A R) ε α

/-- Asks the outside. -/
def askOutside (q : Q) : Caller A R ε (A q) := Talk.ask (.inl q) fun a => .done (.ok a)

/-- Calls the server. -/
def callDesk (k : K) : Caller A R ε (R k) := Talk.ask (.inr k) fun r => .done (.ok r)

@[simp] theorem askOutside_bind (q : Q) (f : A q → Caller A R ε α) :
    ((askOutside q : Caller A R ε (A q)) >>= f) = Talk.ask (.inl q) f := rfl

@[simp] theorem callDesk_bind (k : K) (f : R k → Caller A R ε α) :
    ((callDesk k : Caller A R ε (R k)) >>= f) = Talk.ask (.inr k) f := rfl

/-- What was said to the outside. -/
def outside (l : Talk.Log (Q ⊕ K) (Sum.elim A R)) : Talk.Log Q A :=
  l.filterMap fun
    | ⟨.inl q, a⟩ => some ⟨q, a⟩
    | ⟨.inr _, _⟩ => none

@[simp] theorem outside_nil : outside ([] : Talk.Log (Q ⊕ K) (Sum.elim A R)) = [] := rfl

@[simp] theorem outside_cons_inl (l : Talk.Log (Q ⊕ K) (Sum.elim A R)) (q : Q) (a : A q) :
    outside (⟨.inl q, a⟩ :: l) = ⟨q, a⟩ :: outside l := rfl

@[simp] theorem outside_snoc_inl (l : Talk.Log (Q ⊕ K) (Sum.elim A R)) (q : Q) (a : A q) :
    outside (l ++ [⟨.inl q, a⟩]) = outside l ++ [⟨q, a⟩] :=
  List.filterMap_append

@[simp] theorem outside_snoc_inr (l : Talk.Log (Q ⊕ K) (Sum.elim A R)) (k : K) (r : R k) :
    outside (l ++ [⟨.inr k, r⟩]) = outside l :=
  List.filterMap_append.trans (List.append_nil _)

/-- What was said to the server. -/
def inside (l : Talk.Log (Q ⊕ K) (Sum.elim A R)) : Talk.Log K R :=
  l.filterMap fun
    | ⟨.inl _, _⟩ => none
    | ⟨.inr k, r⟩ => some ⟨k, r⟩

@[simp] theorem inside_snoc_inl (l : Talk.Log (Q ⊕ K) (Sum.elim A R)) (q : Q) (a : A q) :
    inside (l ++ [⟨.inl q, a⟩]) = inside l :=
  List.filterMap_append.trans (List.append_nil _)

@[simp] theorem inside_snoc_inr (l : Talk.Log (Q ⊕ K) (Sum.elim A R)) (k : K) (r : R k) :
    inside (l ++ [⟨.inr k, r⟩]) = inside l ++ [⟨k, r⟩] :=
  List.filterMap_append

/-- A server. What it does with a call may depend on chance, and it may move by itself. -/
structure Desk (R : K → Type) where
  State : Type
  Chance : Type
  Move : Type
  serve : State → Chance → (k : K) → State × R k
  move : State → Move → State

/-- A program that has been started, with what it has said. -/
structure Member (A : Q → Type) (R : K → Type) (P ε α : Type) where
  args : P
  said : Talk.Log (Q ⊕ K) (Sum.elim A R)
  rest : Caller A R ε α

/-- The server and the programs. -/
structure Crowd (D : Desk R) (A : Q → Type) (P ε α : Type) where
  desk : D.State
  members : Nat → Option (Member A R P ε α)

namespace Crowd

inductive Event (D : Desk R) (A : Q → Type) (P : Type) where
  | start (i : Nat) (args : P)
  /-- The outside answers the question of a member; it has an answer for each question. -/
  | answer (i : Nat) (oracle : (q : Q) → A q)
  | serve (i : Nat) (chance : D.Chance)
  | move (m : D.Move)

variable {D : Desk R}

/-- The start, without any member. -/
def start (desk : D.State) : Crowd D A P ε α := ⟨desk, fun _ => none⟩

/-- One step. -/
def step (program : P → Caller A R ε α) (s : Crowd D A P ε α) :
    Event D A P → Option (Crowd D A P ε α × Unit)
  | .start i args =>
    match s.members i with
    | some _ => none
    | none =>
      some ({ s with members := Function.update s.members i (some ⟨args, [], program args⟩) }, ())
  | .answer i oracle =>
    match s.members i with
    | some ⟨args, said, .ask (.inl q) next⟩ =>
      let m : Member A R P ε α := ⟨args, said ++ [⟨.inl q, oracle q⟩], next (oracle q)⟩
      some ({ s with members := Function.update s.members i (some m) }, ())
    | _ => none
  | .serve i chance =>
    match s.members i with
    | some ⟨args, said, .ask (.inr k) next⟩ =>
      let (desk, r) := D.serve s.desk chance k
      let m : Member A R P ε α := ⟨args, said ++ [⟨.inr k, r⟩], next r⟩
      some (⟨desk, Function.update s.members i (some m)⟩, ())
    | _ => none
  | .move m => some ({ s with desk := D.move s.desk m }, ())

/-- Everything a step can do. -/
inductive StepKind (program : P → Caller A R ε α) (s s' : Crowd D A P ε α) (e : Event D A P) : Prop
  | started (i : Nat) (args : P) (event : e = .start i args) (free : s.members i = none)
      (state : s' = ⟨s.desk, Function.update s.members i (some ⟨args, [], program args⟩)⟩)
  | answered (i : Nat) (oracle : (q : Q) → A q) (args : P)
      (said : Talk.Log (Q ⊕ K) (Sum.elim A R)) (q : Q) (next : A q → Caller A R ε α)
      (event : e = .answer i oracle)
      (asking : s.members i = some ⟨args, said, .ask (.inl q) next⟩)
      (state : s' = ⟨s.desk, Function.update s.members i
        (some ⟨args, said ++ [⟨.inl q, oracle q⟩], next (oracle q)⟩)⟩)
  | served (i : Nat) (chance : D.Chance) (args : P)
      (said : Talk.Log (Q ⊕ K) (Sum.elim A R)) (k : K) (next : R k → Caller A R ε α)
      (event : e = .serve i chance)
      (asking : s.members i = some ⟨args, said, .ask (.inr k) next⟩)
      (state : s' = ⟨(D.serve s.desk chance k).1, Function.update s.members i
        (some ⟨args, said ++ [⟨.inr k, (D.serve s.desk chance k).2⟩],
          next (D.serve s.desk chance k).2⟩)⟩)
  | moved (m : D.Move) (event : e = .move m) (state : s' = ⟨D.move s.desk m, s.members⟩)

theorem step_cases {program : P → Caller A R ε α} {s s' : Crowd D A P ε α} {e : Event D A P}
    {u : Unit} (h : step program s e = some (s', u)) : StepKind program s s' e := by
  cases e with
  | start i args =>
    cases hm : s.members i with
    | some m =>
      rw [step, hm] at h
      cases h
    | none =>
      rw [step, hm] at h
      cases h
      exact .started i args rfl hm rfl
  | answer i oracle =>
    rw [step] at h
    split at h
    · next args said q next hm =>
      cases h
      exact .answered i oracle args said q next rfl hm rfl
    · cases h
  | serve i chance =>
    rw [step] at h
    split at h
    · next args said k next hm =>
      cases h
      exact .served i chance args said k next rfl hm rfl
    · cases h
  | move m =>
    cases h
    exact .moved m rfl rfl

/-- What holds of every member, after one of them has changed. -/
theorem forall_members_update {β : Type} {f : Nat → Option β} {i : Nat} {b : β}
    {I : Nat → β → Prop} (hold : ∀ j x, j ≠ i → f j = some x → I j x) (hnew : I i b) :
    ∀ j x, Function.update f i (some b) j = some x → I j x := by
  intro j x hx
  by_cases hj : j = i
  · subst hj
    rw [Function.update_self] at hx
    cases hx
    exact hnew
  · rw [Function.update_of_ne hj] at hx
    exact hold j x hj hx

/-- **Every member of the crowd speaks as its program.** -/
theorem member_speaks {program : P → Caller A R ε α} {desk : D.State}
    {h : List (Event D A P × Unit)} {s : Crowd D A P ε α}
    (ht : Trace (step program) (start desk) h s) {i : Nat} {m : Member A R P ε α}
    (hm : s.members i = some m) : Talk.Says (program m.args) m.said m.rest := by
  refine Trace.invariant (fun _ s => ∀ i m, s.members i = some m →
    Talk.Says (program m.args) m.said m.rest) (fun i m hm => by cases hm) ?_ ht i m hm
  intro _ s e s' _ _ ih hstep
  have hold : ∀ i j (m : Member A R P ε α), j ≠ i → s.members j = some m →
      Talk.Says (program m.args) m.said m.rest := fun i j m _ hm => ih j m hm
  cases step_cases hstep with
  | started i args event free state =>
    rw [state]
    exact forall_members_update (hold i) .nil
  | answered i oracle args said q next event asking state =>
    rw [state]
    exact forall_members_update (hold i) (Talk.Says.snoc (ih i _ asking) (oracle q))
  | served i chance args said k next event asking state =>
    rw [state]
    exact forall_members_update (hold i)
      (Talk.Says.snoc (ih i _ asking) (D.serve s.desk chance k).2)
  | moved x event state =>
    rw [state]
    exact ih

/-- The chance of the event, if it serves a call of the member `i`. -/
def Event.chanceFor (i : Nat) : Event D A P → Option D.Chance
  | .serve j chance => if j = i then some chance else none
  | _ => none

/-- The chances with which the calls of the member `i` were served. -/
def chances (i : Nat) (h : List (Event D A P × Unit)) : List D.Chance :=
  h.filterMap fun x => x.1.chanceFor i

theorem chances_snoc (i : Nat) (h : List (Event D A P × Unit)) (e : Event D A P) (u : Unit) :
    chances i (h ++ [(e, u)]) = chances i h ++ (e.chanceFor i).toList := by
  rw [chances, List.filterMap_append]
  rfl

/-- What a member has said to the server, which is nothing before it is started. -/
def calls (s : Crowd D A P ε α) (i : Nat) : Talk.Log K R :=
  (s.members i).elim [] fun m => inside m.said

theorem calls_update_self {s : Crowd D A P ε α} {desk : D.State} {i : Nat}
    {m : Member A R P ε α} :
    calls (⟨desk, Function.update s.members i (some m)⟩ : Crowd D A P ε α) i = inside m.said := by
  simp only [calls, Function.update_self, Option.elim_some]

theorem calls_update_of_ne {s : Crowd D A P ε α} {desk : D.State} {i j : Nat}
    {m : Member A R P ε α} (hj : j ≠ i) :
    calls (⟨desk, Function.update s.members i (some m)⟩ : Crowd D A P ε α) j = calls s j := by
  simp only [calls, Function.update_of_ne hj]

/-- **Every call of a member was served once**, with a chance of its own. -/
theorem length_calls {program : P → Caller A R ε α} {desk : D.State}
    {h : List (Event D A P × Unit)} {s : Crowd D A P ε α}
    (ht : Trace (step program) (start desk) h s) :
    ∀ i, (calls s i).length = (chances i h).length := by
  refine Trace.invariant (fun h s => ∀ i, (calls s i).length = (chances i h).length)
    (fun i => rfl) ?_ ht
  intro h s e s' u _ ih hstep j
  rw [chances_snoc, List.length_append, ← ih j]
  cases step_cases hstep with
  | started i args event free state =>
    rw [state, event]
    by_cases hj : j = i
    · rw [hj, calls_update_self, calls, free]
      rfl
    · rw [calls_update_of_ne hj]
      rfl
  | answered i oracle args said q next event asking state =>
    rw [state, event]
    by_cases hj : j = i
    · rw [hj, calls_update_self, calls, asking, inside_snoc_inl]
      rfl
    · rw [calls_update_of_ne hj]
      rfl
  | served i chance args said k next event asking state =>
    rw [state, event]
    by_cases hj : j = i
    · rw [hj, calls_update_self, calls, asking, inside_snoc_inr, List.length_append,
        Event.chanceFor, if_pos rfl]
      rfl
    · rw [calls_update_of_ne hj, Event.chanceFor, if_neg (Ne.symm hj)]
      rfl
  | moved x event state =>
    rw [state, event]
    rfl

end Crowd

/-! ## Entries that belong to members -/

/-- Every entry of the table is the one of a member, which has no other. -/
structure Owned {κ β : Type} (table : κ → Option β) (owners : Nat → Option (κ × β)) : Prop where
  entry_iff : ∀ k b, table k = some b ↔ ∃ i, owners i = some (k, b)
  apart : ∀ i j k b b', owners i = some (k, b) → owners j = some (k, b') → i = j

namespace Owned

variable {κ β : Type} {table : κ → Option β} {owners : Nat → Option (κ × β)}

theorem empty : Owned (fun _ => none : κ → Option β) fun _ => none where
  entry_iff k b := by simp
  apart i j k b b' h := by cases h

theorem found (h : Owned table owners) {i : Nat} {k : κ} {b : β} (hi : owners i = some (k, b)) :
    table k = some b :=
  (h.entry_iff k b).mpr ⟨i, hi⟩

variable [DecidableEq κ]

/-- A member sets its entry, which may be a new one if nobody else has it. -/
theorem put (h : Owned table owners) {i : Nat} {k : κ} (b : β)
    (hi : ∀ k' b', owners i = some (k', b') → k' = k)
    (hk : ∀ j b', owners j = some (k, b') → j = i) :
    Owned (Function.update table k (some b)) (Function.update owners i (some (k, b))) where
  entry_iff k' b' := by
    by_cases hk' : k' = k
    · subst hk'
      rw [Function.update_self]
      constructor
      · rintro ⟨⟩
        exact ⟨i, Function.update_self ..⟩
      · rintro ⟨j, hj⟩
        by_cases hji : j = i
        · subst hji
          rw [Function.update_self] at hj
          cases hj
          rfl
        · rw [Function.update_of_ne hji] at hj
          exact absurd (hk j b' hj) hji
    · rw [Function.update_of_ne hk', h.entry_iff]
      refine exists_congr fun j => ?_
      by_cases hji : j = i
      · subst hji
        rw [Function.update_self]
        constructor
        · exact fun hj => absurd (hi k' b' hj) hk'
        · rintro ⟨⟩
          exact absurd rfl hk'
      · rw [Function.update_of_ne hji]
  apart j j' k' b₁ b₂ hj hj' := by
    have hmine : ∀ l b', l ≠ i → Function.update owners i (some (k, b)) l = some (k, b') →
        l = i := by
      intro l b' hl hlk
      rw [Function.update_of_ne hl] at hlk
      exact hk l b' hlk
    by_cases hji : j = i
    · subst hji
      rw [Function.update_self] at hj
      cases hj
      by_cases hj'i : j' = j
      · exact hj'i.symm
      · exact (hmine j' b₂ hj'i hj').symm
    · by_cases hj'i : j' = i
      · subst hj'i
        rw [Function.update_self] at hj'
        cases hj'
        exact hmine j b₁ hji hj
      · rw [Function.update_of_ne hji] at hj
        rw [Function.update_of_ne hj'i] at hj'
        exact h.apart j j' k' b₁ b₂ hj hj'

/-- A member gives its entry up. -/
theorem drop (h : Owned table owners) {i : Nat} {k : κ} {b : β} (hi : owners i = some (k, b)) :
    Owned (Function.update table k none) (Function.update owners i none) where
  entry_iff k' b' := by
    by_cases hk' : k' = k
    · subst hk'
      rw [Function.update_self]
      constructor
      · rintro ⟨⟩
      · rintro ⟨j, hj⟩
        by_cases hji : j = i
        · rw [hji, Function.update_self] at hj
          cases hj
        · rw [Function.update_of_ne hji] at hj
          exact absurd (h.apart j i k' b' b hj hi) hji
    · rw [Function.update_of_ne hk', h.entry_iff]
      refine exists_congr fun j => ?_
      by_cases hji : j = i
      · subst hji
        rw [Function.update_self, hi]
        constructor
        · rintro ⟨⟩
          exact absurd rfl hk'
        · rintro ⟨⟩
      · rw [Function.update_of_ne hji]
  apart j j' k' b₁ b₂ hj hj' := by
    have hother : ∀ l b', Function.update owners i none l = some (k', b') →
        owners l = some (k', b') := by
      intro l b' hl
      by_cases hli : l = i
      · rw [hli, Function.update_self] at hl
        cases hl
      · rwa [Function.update_of_ne hli] at hl
    exact h.apart j j' k' b₁ b₂ (hother j b₁ hj) (hother j' b₂ hj')

end Owned

end Infra
