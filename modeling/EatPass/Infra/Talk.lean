import EatPass.Infra.Outcome

/-!
# Programs that ask

A program that talks to the outside: it is done, with a result, or it asks a question and goes on
with the answer, whatever that is. What has been asked and answered is a conversation. It may end
anywhere, so what holds of every conversation holds at every moment of a run.

* `Holds.bind` — the rule of composition for properties of conversations
* `Needs.bind_left`, `Needs.bind_right` — what a program has heard when it ends well
* `says_transcript` — the conversation with answers that are fixed in advance
-/

namespace Infra

/-- A program over questions `Q`, where `q` is answered by an `A q`. -/
inductive Talk (Q : Type) (A : Q → Type) (ε α : Type) where
  | done (result : Outcome ε α)
  | ask (q : Q) (next : A q → Talk Q A ε α)

namespace Talk

variable {Q : Type} {A : Q → Type} {ε α β : Type}

protected def bind : Talk Q A ε α → (α → Talk Q A ε β) → Talk Q A ε β
  | done (.ok a), f => f a
  | done (.err e), _ => done (.err e)
  | done .panic, _ => done .panic
  | ask q next, f => ask q fun a => (next a).bind f

instance : Monad (Talk Q A ε) where
  pure a := done (.ok a)
  bind := Talk.bind

/-- Asks one question. -/
def question (q : Q) : Talk Q A ε (A q) := ask q fun a => done (.ok a)

/-- A step that asks nothing. -/
def lift (x : Outcome ε α) : Talk Q A ε α := done x

/-- A last part that follows the program however it ends. -/
def andFinally : Talk Q A ε α → Talk Q A ε Unit → Talk Q A ε α
  | done x, last => last.bind fun _ => done x
  | ask q next, last => ask q fun a => (next a).andFinally last

@[simp] theorem question_bind (q : Q) (f : A q → Talk Q A ε α) : (question q >>= f) = ask q f := rfl

@[simp] theorem lift_ok_bind (a : α) (f : α → Talk Q A ε β) : (lift (.ok a) >>= f) = f a := rfl

@[simp] theorem lift_err_bind (e : ε) (f : α → Talk Q A ε β) :
    (lift (.err e) >>= f) = done (.err e) := rfl

@[simp] theorem lift_panic_bind (f : α → Talk Q A ε β) :
    ((lift .panic : Talk Q A ε α) >>= f) = done .panic := rfl

@[simp] theorem pure_bind (a : α) (f : α → Talk Q A ε β) : ((pure a : Talk Q A ε α) >>= f) = f a :=
  rfl

theorem bind_assoc {γ : Type} : ∀ (t : Talk Q A ε α) (f : α → Talk Q A ε β)
    (g : β → Talk Q A ε γ), ((t >>= f) >>= g) = (t >>= fun a => f a >>= g)
  | done (.ok _), _, _ => rfl
  | done (.err _), _, _ => rfl
  | done .panic, _, _ => rfl
  | ask q next, f, g => congrArg (ask q) (funext fun a => bind_assoc (next a) f g)

/-! ## Conversations -/

/-- Questions and their answers, oldest first. -/
abbrev Log (Q : Type) (A : Q → Type) := List ((q : Q) × A q)

/-- `Says t log t'`: the program has said `log`, and `t'` is what is left of it. -/
inductive Says : Talk Q A ε α → Log Q A → Talk Q A ε α → Prop
  | nil {t : Talk Q A ε α} : Says t [] t
  | cons {q : Q} {next : A q → Talk Q A ε α} {a : A q} {log : Log Q A} {t' : Talk Q A ε α} :
      Says (next a) log t' → Says (ask q next) (⟨q, a⟩ :: log) t'

/-- One more question is answered. -/
theorem Says.snoc {t : Talk Q A ε α} {log : Log Q A} {q : Q} {next : A q → Talk Q A ε α}
    (h : Says t log (ask q next)) (a : A q) : Says t (log ++ [⟨q, a⟩]) (next a) := by
  generalize hrest : ask q next = rest at h
  induction h with
  | nil =>
    subst hrest
    exact .cons .nil
  | cons _ ih => exact .cons (ih hrest)

/-- What a composed program says: it is still in its first part, or that part is done. -/
theorem says_bind {t : Talk Q A ε α} {f : α → Talk Q A ε β} {log : Log Q A} {u : Talk Q A ε β}
    (h : Says (t >>= f) log u) :
    (∃ t', Says t log t' ∧ u = (t' >>= f)) ∨
      ∃ a log₁ log₂, log = log₁ ++ log₂ ∧ Says t log₁ (done (.ok a)) ∧ Says (f a) log₂ u := by
  induction t generalizing log with
  | done x =>
    cases x with
    | ok a => exact .inr ⟨a, [], log, rfl, .nil, h⟩
    | err e => cases h; exact .inl ⟨_, .nil, rfl⟩
    | panic => cases h; exact .inl ⟨_, .nil, rfl⟩
  | ask q next ih =>
    cases h with
    | nil => exact .inl ⟨_, .nil, rfl⟩
    | @cons _ _ a log _ h =>
      rcases ih a h with ⟨t', ht', rfl⟩ | ⟨b, log₁, log₂, rfl, h₁, h₂⟩
      · exact .inl ⟨t', .cons ht', rfl⟩
      · exact .inr ⟨b, ⟨q, a⟩ :: log₁, log₂, rfl, .cons h₁, h₂⟩

/-- A composed program that ends well: both parts have. -/
theorem says_bind_ok {t : Talk Q A ε α} {f : α → Talk Q A ε β} {log : Log Q A} {b : β}
    (h : Says (t >>= f) log (done (.ok b))) :
    ∃ a log₁ log₂, log = log₁ ++ log₂ ∧ Says t log₁ (done (.ok a)) ∧
      Says (f a) log₂ (done (.ok b)) := by
  rcases says_bind h with ⟨t', ht', hend⟩ | hboth
  · cases t' with
    | ask q next => cases hend
    | done x =>
      cases x with
      | ok a => exact ⟨a, log, [], (List.append_nil _).symm, ht', hend ▸ .nil⟩
      | err e => cases hend
      | panic => cases hend
  · exact hboth

/-- A first step that asks nothing, in a program that ends well. -/
theorem says_lift_bind {x : Outcome ε α} {f : α → Talk Q A ε β} {log : Log Q A} {b : β}
    (h : Says (lift x >>= f) log (done (.ok b))) :
    ∃ a, x = .ok a ∧ Says (f a) log (done (.ok b)) := by
  cases x with
  | ok a => exact ⟨a, rfl, h⟩
  | err e => cases h
  | panic => cases h

/--
After the conversation `before`, the program keeps `I` with everything it says, and if it ends well
then in `R`.
-/
def Holds (I : Log Q A → Prop) (R : Log Q A → α → Prop) (before : Log Q A) (t : Talk Q A ε α) :
    Prop :=
  ∀ log t', Says t log t' → I (before ++ log) ∧ ∀ a, t' = done (.ok a) → R (before ++ log) a

variable {I : Log Q A → Prop} {R : Log Q A → α → Prop} {before : Log Q A}

namespace Holds

theorem lift {x : Outcome ε α} (hI : I before) (hR : ∀ a, x = .ok a → R before a) :
    Holds I R before (lift x) := by
  intro log t' h
  cases h
  rw [List.append_nil]
  exact ⟨hI, fun a ha => hR a (Talk.done.inj ha)⟩

theorem pure {a : α} (hI : I before) (hR : R before a) :
    Holds I R before (Pure.pure a : Talk Q A ε α) := by
  refine Holds.lift hI fun b hb => ?_
  cases hb
  exact hR

theorem ask {q : Q} {next : A q → Talk Q A ε α} (hI : I before)
    (hnext : ∀ a, Holds I R (before ++ [⟨q, a⟩]) (next a)) : Holds I R before (ask q next) := by
  intro log t' h
  cases h with
  | nil =>
    rw [List.append_nil]
    exact ⟨hI, fun a ha => by cases ha⟩
  | @cons _ _ a log _ h =>
    rw [← List.singleton_append, ← List.append_assoc]
    exact hnext a log t' h

theorem question_bind {q : Q} {f : A q → Talk Q A ε α} (hI : I before)
    (hf : ∀ a, Holds I R (before ++ [⟨q, a⟩]) (f a)) : Holds I R before (question q >>= f) :=
  Holds.ask hI hf

/-- **The rule of composition**: the second part starts from what the first one ends in. -/
theorem bind {S : Log Q A → β → Prop} {t : Talk Q A ε α} {f : α → Talk Q A ε β}
    (ht : Holds I R before t) (hf : ∀ log a, R log a → Holds I S log (f a)) :
    Holds I S before (t >>= f) := by
  intro log u h
  rcases says_bind h with ⟨t', ht', rfl⟩ | ⟨a, log₁, log₂, rfl, h₁, h₂⟩
  · refine ⟨(ht log t' ht').1, fun b hb => ?_⟩
    -- the first part has ended well, so the second one says nothing more
    cases t' with
    | ask q next => cases hb
    | done x =>
      cases x with
      | ok a =>
        have hend := hf _ a ((ht log _ ht').2 a rfl) [] (f a) .nil
        rw [List.append_nil] at hend
        exact hend.2 b hb
      | err e => cases hb
      | panic => cases hb
  · rw [← List.append_assoc]
    exact hf _ a ((ht log₁ _ h₁).2 a rfl) log₂ u h₂

theorem lift_bind {S : Log Q A → β → Prop} {x : Outcome ε α} {f : α → Talk Q A ε β}
    (hI : I before) (hf : ∀ a, x = .ok a → Holds I S before (f a)) :
    Holds I S before (Talk.lift x >>= f) :=
  bind (R := fun log a => log = before ∧ x = .ok a) (Holds.lift hI fun _ ha => ⟨rfl, ha⟩)
    fun _ a ⟨hlog, ha⟩ => hlog ▸ hf a ha

theorem mono {S : Log Q A → α → Prop} {t : Talk Q A ε α} (h : Holds I R before t)
    (hRS : ∀ log a, R log a → S log a) : Holds I S before t :=
  fun log t' hlog => ⟨(h log t' hlog).1, fun a ha => hRS _ _ ((h log t' hlog).2 a ha)⟩

end Holds

/-- The program asks no question of a kind. -/
def Avoids (P : Q → Prop) (t : Talk Q A ε α) : Prop :=
  ∀ log t', Says t log t' → ∀ x ∈ log, ¬ P x.1

namespace Avoids

variable {P : Q → Prop}

theorem lift (x : Outcome ε α) : Avoids P (lift x : Talk Q A ε α) := by
  intro log t' h
  cases h
  simp

theorem ask {q : Q} {next : A q → Talk Q A ε α} (hq : ¬ P q) (hnext : ∀ a, Avoids P (next a)) :
    Avoids P (ask q next) := by
  intro log t' h x hx
  cases h with
  | nil => cases hx
  | @cons _ _ a log _ h =>
    rcases List.mem_cons.mp hx with rfl | hx
    · exact hq
    · exact hnext a log t' h x hx

theorem bind {t : Talk Q A ε α} {f : α → Talk Q A ε β} (ht : Avoids P t)
    (hf : ∀ a, Avoids P (f a)) : Avoids P (t >>= f) := by
  intro log u h x hx
  rcases says_bind h with ⟨t', ht', rfl⟩ | ⟨a, log₁, log₂, rfl, h₁, h₂⟩
  · exact ht log t' ht' x hx
  · rcases List.mem_append.mp hx with hx | hx
    · exact ht log₁ _ h₁ x hx
    · exact hf a log₂ u h₂ x hx

theorem question_bind {q : Q} {f : A q → Talk Q A ε α} (hq : ¬ P q)
    (hf : ∀ a, Avoids P (f a)) : Avoids P (question q >>= f) :=
  ask hq hf

theorem lift_bind {x : Outcome ε α} {f : α → Talk Q A ε β} (hf : ∀ a, Avoids P (f a)) :
    Avoids P (Talk.lift x >>= f) :=
  bind (lift x) hf

theorem next {q : Q} {next : A q → Talk Q A ε α} (h : Avoids P (Talk.ask q next)) (a : A q) :
    ¬ P q ∧ Avoids P (next a) := by
  refine ⟨h [⟨q, a⟩] _ (.cons .nil) _ List.mem_cons_self, fun log t' hlog x hx => ?_⟩
  exact h (⟨q, a⟩ :: log) t' (.cons hlog) x (List.mem_cons_of_mem _ hx)

theorem andFinally {t : Talk Q A ε α} {last : Talk Q A ε Unit} (ht : Avoids P t)
    (hlast : Avoids P last) : Avoids P (t.andFinally last) := by
  induction t with
  | done x => exact .bind hlast fun _ => .lift x
  | ask q next ih =>
    intro log u h x hx
    cases h with
    | nil => cases hx
    | @cons _ _ a log _ h =>
      obtain ⟨hq, hnext⟩ := ht.next a
      rcases List.mem_cons.mp hx with rfl | hx
      · exact hq
      · exact ih a hnext log u h x hx

/-- What every allowed question keeps. -/
theorem holds {t : Talk Q A ε α} (ht : Avoids P t)
    (hkeep : ∀ l q (a : A q), I l → ¬ P q → I (l ++ [⟨q, a⟩])) (hI : I before) :
    Holds I (fun l _ => I l) before t := by
  induction t generalizing before with
  | done x => exact Holds.lift hI fun _ _ => hI
  | ask q next ih =>
    refine Holds.ask hI fun a => ?_
    obtain ⟨hq, hnext⟩ := ht.next a
    exact ih a hnext (hkeep before q a hI hq)

end Avoids

/-- The program ends well only after an answer of a kind. -/
def Needs (P : (q : Q) → A q → Prop) (t : Talk Q A ε α) : Prop :=
  ∀ log a, Says t log (done (.ok a)) → ∃ x ∈ log, P x.1 x.2

namespace Needs

variable {P : (q : Q) → A q → Prop}

theorem err (e : ε) : Needs P (done (.err e) : Talk Q A ε α) := by
  intro log a h
  cases h

theorem panic : Needs P (done .panic : Talk Q A ε α) := by
  intro log a h
  cases h

theorem ask {q : Q} {next : A q → Talk Q A ε α} (hnext : ∀ a, P q a ∨ Needs P (next a)) :
    Needs P (ask q next) := by
  intro log b h
  cases h with
  | @cons _ _ a log _ h =>
    rcases hnext a with ha | hn
    · exact ⟨_, List.mem_cons_self, ha⟩
    · obtain ⟨x, hx, hP⟩ := hn log b h
      exact ⟨x, List.mem_cons_of_mem _ hx, hP⟩

theorem next {q : Q} {next : A q → Talk Q A ε α} (h : Needs P (Talk.ask q next)) (a : A q) :
    P q a ∨ Needs P (next a) := by
  by_cases ha : P q a
  · exact .inl ha
  · refine .inr fun log b hlog => ?_
    obtain ⟨x, hx, hP⟩ := h (⟨q, a⟩ :: log) b (.cons hlog)
    rcases List.mem_cons.mp hx with rfl | hx
    · exact absurd hP ha
    · exact ⟨x, hx, hP⟩

theorem bind_left {t : Talk Q A ε α} (ht : Needs P t) (f : α → Talk Q A ε β) :
    Needs P (t >>= f) := by
  intro log b h
  obtain ⟨a, log₁, log₂, rfl, h₁, -⟩ := says_bind_ok h
  obtain ⟨x, hx, hP⟩ := ht log₁ a h₁
  exact ⟨x, List.mem_append_left _ hx, hP⟩

theorem bind_right {t : Talk Q A ε α} {f : α → Talk Q A ε β} (hf : ∀ a, Needs P (f a)) :
    Needs P (t >>= f) := by
  intro log b h
  obtain ⟨a, log₁, log₂, rfl, -, h₂⟩ := says_bind_ok h
  obtain ⟨x, hx, hP⟩ := hf a log₂ b h₂
  exact ⟨x, List.mem_append_right _ hx, hP⟩

theorem andFinally {t : Talk Q A ε α} (ht : Needs P t) (last : Talk Q A ε Unit) :
    Needs P (t.andFinally last) := by
  induction t with
  | done x =>
    refine .bind_right fun _ => ?_
    cases x with
    | ok a =>
      -- it ends well after nothing was said
      obtain ⟨x, hx, -⟩ := ht [] a .nil
      cases hx
    | err e => exact .err e
    | panic => exact .panic
  | ask q next ih => exact .ask fun a => (ht.next a).imp_right (ih a)

end Needs

/-! ## Answers that are fixed -/

/-- The result, where every question has one answer. -/
def answered (env : (q : Q) → A q) : Talk Q A ε α → Outcome ε α
  | done x => x
  | ask q next => answered env (next (env q))

/-- What is said, where every question has one answer. -/
def transcript (env : (q : Q) → A q) : Talk Q A ε α → Log Q A
  | done _ => []
  | ask q next => ⟨q, env q⟩ :: transcript env (next (env q))

/-- **With fixed answers a program is done after its transcript.** -/
theorem says_transcript (env : (q : Q) → A q) :
    ∀ t : Talk Q A ε α, Says t (t.transcript env) (done (t.answered env))
  | done _ => .nil
  | ask q next => .cons (says_transcript env (next (env q)))

theorem answered_bind (env : (q : Q) → A q) : ∀ (t : Talk Q A ε α) (f : α → Talk Q A ε β),
    (t >>= f).answered env = (t.answered env >>= fun a => (f a).answered env)
  | done (.ok _), _ => rfl
  | done (.err _), _ => rfl
  | done .panic, _ => rfl
  | ask q next, f => answered_bind env (next (env q)) f

/-- The second part adds to the conversation if the first one ends well. -/
theorem transcript_bind {env : (q : Q) → A q} {a : α} : ∀ {t : Talk Q A ε α}
    {f : α → Talk Q A ε β}, t.answered env = .ok a →
      (t >>= f).transcript env = t.transcript env ++ (f a).transcript env
  | done (.ok _), f, h => by
    cases h
    rfl
  | ask q next, f, h => congrArg (List.cons _) (transcript_bind (t := next (env q)) h)

end Talk

end Infra
