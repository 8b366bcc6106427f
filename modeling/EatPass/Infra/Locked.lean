import EatPass.Infra.Linearize

/-!
# Operations behind a mutex

An operation works on its arguments, takes a mutex once, and finishes with what it found. Tasks run
such operations side by side: between the parts of one operation there may be parts of others, but
the part under the mutex is one step. The object such a system implements is the guarded value with
the operations done in one piece.
-/

namespace Infra

variable {σ κ ρ : Type}

/-- The parts of the operations on a guarded value. `prepare` may already know the reply; then the
mutex is not taken. -/
structure Locked (σ κ ρ : Type) where
  /-- What is brought to the mutex. -/
  Ready : Type
  /-- What is brought away from it. -/
  Taken : Type
  prepare : κ → Ready ⊕ ρ
  access : Ready → σ → σ × Taken
  finish : Taken → ρ

namespace Locked

variable (L : Locked σ κ ρ)

/-- An operation in one piece. -/
def run (s : σ) (k : κ) : σ × ρ :=
  match L.prepare k with
  | .inl ready => ((L.access ready s).1, L.finish (L.access ready s).2)
  | .inr r => (s, r)

/-- The object: operations one after the other. -/
def spec (s : σ) (k : κ) : Option (σ × ρ) := some (L.run s k)

/-- How far a task is with its operation. -/
inductive Task where
  | prepared (k : κ) (p : L.Ready ⊕ ρ)
  | taken (k : κ) (t : L.Taken ⊕ ρ)

/-- The guarded value and the tasks. -/
structure System where
  guarded : σ
  tasks : Nat → Option L.Task

inductive Event (κ : Type) where
  /-- A task without an operation starts one and prepares it. -/
  | call (t : Nat) (k : κ)
  /-- A task that has prepared its operation takes the mutex, unless it knows the reply. -/
  | access (t : Nat)
  /-- A task that has released the mutex finishes and replies. -/
  | finish (t : Nat)

/-- One step of the tasks. -/
def step (s : L.System) : Event κ → Option (L.System × Mark κ κ ρ)
  | .call t k =>
    match s.tasks t with
    | some _ => none
    | none =>
      some ({ s with tasks := Function.update s.tasks t (some (.prepared k (L.prepare k))) },
        .called t k)
  | .access t =>
    match s.tasks t with
    | some (.prepared k (.inl ready)) =>
      let (guarded, found) := L.access ready s.guarded
      some (⟨guarded, Function.update s.tasks t (some (.taken k (.inl found)))⟩,
        .effect t k (L.finish found))
    | some (.prepared k (.inr r)) =>
      some ({ s with tasks := Function.update s.tasks t (some (.taken k (.inr r))) },
        .effect t k r)
    | _ => none
  | .finish t =>
    match s.tasks t with
    | some (.taken k (.inl found)) =>
      some ({ s with tasks := Function.update s.tasks t none }, .returned t k (L.finish found))
    | some (.taken k (.inr r)) =>
      some ({ s with tasks := Function.update s.tasks t none }, .returned t k r)
    | _ => none

/-- No operation has been started. -/
def start (s : σ) : L.System := ⟨s, fun _ => none⟩

variable {L}

/-- The operation of a task, with its reply once the mutex is released. -/
def Task.flight : L.Task → κ × Option ρ
  | .prepared k _ => (k, none)
  | .taken k (.inl found) => (k, some (L.finish found))
  | .taken k (.inr r) => (k, some r)

/-- What a task that has not taken the mutex holds is what its operation prepares. -/
def Task.Sound : L.Task → Prop
  | .prepared k p => p = L.prepare k
  | .taken _ _ => True

theorem flight_update (tasks : Nat → Option L.Task) (t : Nat) (task : Option L.Task) :
    (fun u => (Function.update tasks t task u).map Task.flight)
      = Function.update (fun u => (tasks u).map Task.flight) t (task.map Task.flight) := by
  funext u
  by_cases hu : u = t
  · subst hu
    simp
  · simp [hu]

theorem sound_update {tasks : Nat → Option L.Task} {t : Nat} {task : Option L.Task}
    (hinv : ∀ u x, tasks u = some x → x.Sound) (ht : ∀ x, task = some x → x.Sound) :
    ∀ u x, Function.update tasks t task u = some x → x.Sound := by
  intro u x hx
  by_cases hu : u = t
  · subst hu
    rw [Function.update_self] at hx
    exact ht x hx
  · rw [Function.update_of_ne hu] at hx
    exact hinv u x hx

variable (L)

/-- **A mutex makes operations atomic**: the tasks implement the object whose operations are done
in one piece. -/
def implements : Implements L.spec id L.step where
  view s := s.guarded
  inFlight s t := (s.tasks t).map Task.flight
  Inv s := ∀ t x, s.tasks t = some x → x.Sound
  keeps {s i s' m} hinv hstep := by
    cases i with
    | call t k =>
      simp only [step] at hstep
      split at hstep
      · cases hstep
      · cases hstep
        refine sound_update hinv fun x hx => ?_
        cases hx
        rfl
    | access t =>
      simp only [step] at hstep
      split at hstep
      · cases hstep
        exact sound_update hinv fun x hx => by cases hx; trivial
      · cases hstep
        exact sound_update hinv fun x hx => by cases hx; trivial
      · cases hstep
    | finish t =>
      simp only [step] at hstep
      split at hstep
      · cases hstep
        exact sound_update hinv fun x hx => by cases hx
      · cases hstep
        exact sound_update hinv fun x hx => by cases hx
      · cases hstep
  follows {s i s' m} hinv hstep := by
    cases i with
    | call t k =>
      simp only [step] at hstep
      split at hstep
      · cases hstep
      · next hfree =>
        cases hstep
        rw [flight_update]
        exact .called (by rw [hfree]; rfl)
    | access t =>
      simp only [step] at hstep
      split at hstep
      · next k ready htask =>
        cases hstep
        have hprepare : Sum.inl ready = L.prepare k := hinv t _ htask
        rw [flight_update]
        refine .effect (by rw [htask]; rfl) ?_
        simp only [spec, run, ← hprepare]
      · next k r htask =>
        cases hstep
        have hprepare : Sum.inr r = L.prepare k := hinv t _ htask
        rw [flight_update]
        refine .effect (by rw [htask]; rfl) ?_
        simp only [spec, run, ← hprepare]
      · cases hstep
    | finish t =>
      simp only [step] at hstep
      split at hstep
      · next k found htask =>
        cases hstep
        rw [flight_update]
        exact .returned (by rw [htask]; rfl)
      · next k r htask =>
        cases hstep
        rw [flight_update]
        exact .returned (by rw [htask]; rfl)
      · cases hstep

theorem start_inv (s₀ : σ) : L.implements.Inv (L.start s₀) := by
  intro t x hx
  cases hx

variable {L}

/-- Tasks on operations behind a mutex are linearizable. -/
theorem linearization {s₀ : σ} {h : List (Event κ × Mark κ κ ρ)} {s : L.System}
    (ht : Trace L.step (L.start s₀) h s) :
    Linearization id L.spec s₀ (h.map Prod.snd) (points (h.map Prod.snd)) :=
  L.implements.linearization (L.start_inv s₀) (fun _ => rfl) ht

/-- What has been done so far, and what is in flight. -/
theorem progress {s₀ : σ} {h : List (Event κ × Mark κ κ ρ)} {s : L.System}
    (ht : Trace L.step (L.start s₀) h s) :
    Progress L.spec id s₀ (h.map Prod.snd) s.guarded fun t => (s.tasks t).map Task.flight :=
  (L.implements.progress (L.start_inv s₀) (fun _ => rfl) ht).2

end Locked

end Infra
