import EatPass.Cli.Store

/-!
# The Redis store against the in-memory store

Replicas that share one Redis should answer every call as one in-memory store would that is given
the same calls and never pruned. The expiry time of an epoch's set is moved by every call on the
epoch, so it has nothing to do with when the key of the epoch is retired: once the epoch has seen
no call for `ttl_secs`, its set is gone, and a nonce that is presented again is accepted again.

* `refinesInMemory_iff` — the answers are those of the in-memory store exactly when no pair is
  presented again after a call on its epoch has found the set expired
-/

namespace EatPass

open Infra

abbrev RedisHistory := List (RedisEvent × Option (Outcome SpendError Unit))

/-- The calls of a history, in the order in which Redis ran their `SADD`. -/
def callsOf (h : RedisHistory) : List SpendKey := h.filterMap fun x => x.1.call

/-- What the calls return, in the same order. -/
def answersOf (h : RedisHistory) : List (Outcome SpendError Unit) := h.filterMap Prod.snd

/-- The pairs that were accepted. -/
def acceptedOf (h : RedisHistory) : List SpendKey :=
  h.filterMap fun x => if x.2 = some (.ok ()) then x.1.call else none

/-- Every call returns what a never-pruned in-memory store returns, so no pair is accepted
twice. -/
structure RefinesInMemory (h : RedisHistory) : Prop where
  answers : answersOf h = (InMemorySpentStore.new.answers (callsOf h)).2
  once : (acceptedOf h).Nodup

variable (store : RedisSpentStore) (clock : Int)

/-- No call on the epoch of `c` has found the epoch's set expired after `c` was called. -/
def Remembered (h : RedisHistory) (c : SpendKey) : Prop :=
  ∀ before x after, h = before ++ x :: after → ∀ s,
    Trace (RedisReplicas.step store) (.start clock) before s → ∀ d, x.1.call = some d →
      d.1 = c.1 → s.Expired c.1 → c ∉ callsOf before

/-- No call presents a pair again once its epoch's set has been found expired, be it by this call
or by one before it. -/
def NoReplayAfterExpiry (h : RedisHistory) : Prop :=
  ∀ before x after, h = before ++ x :: after → ∀ c, x.1.call = some c →
    Remembered store clock (before ++ [x]) c

variable {store clock}

/-! ## One more event -/

theorem callsOf_snoc (h : RedisHistory) (e : RedisEvent) (r : Option (Outcome SpendError Unit)) :
    callsOf (h ++ [(e, r)]) = callsOf h ++ e.call.toList := by
  rw [callsOf, List.filterMap_append]
  cases hc : e.call <;> simp [callsOf, hc]

theorem answersOf_snoc (h : RedisHistory) (e : RedisEvent)
    (r : Option (Outcome SpendError Unit)) :
    answersOf (h ++ [(e, r)]) = answersOf h ++ r.toList := by
  rw [answersOf, List.filterMap_append]
  cases r <;> simp [answersOf]

theorem remembered_snoc {h : RedisHistory} {s : RedisReplicas} {e : RedisEvent}
    {r : Option (Outcome SpendError Unit)}
    (ht : Trace (RedisReplicas.step store) (.start clock) h s) (c : SpendKey) :
    Remembered store clock (h ++ [(e, r)]) c ↔ Remembered store clock h c ∧
      ∀ d, e.call = some d → d.1 = c.1 → s.Expired c.1 → c ∉ callsOf h := by
  rw [Remembered, forall_split_snoc]
  refine and_congr_right fun _ => ⟨fun hlast => hlast s ht, fun hlast s' hs' => ?_⟩
  rw [Trace.state_unique hs' ht]
  exact hlast

theorem noReplayAfterExpiry_snoc {h : RedisHistory} {e : RedisEvent}
    {r : Option (Outcome SpendError Unit)} :
    NoReplayAfterExpiry store clock (h ++ [(e, r)]) ↔ NoReplayAfterExpiry store clock h ∧
      ∀ c, e.call = some c → Remembered store clock (h ++ [(e, r)]) c :=
  forall_split_snoc

/-! ## What the server still knows -/

/--
A pair in the server was called, and a pair that was called is in the server as long as it is
remembered. The converse of the second part needs that nothing was replayed: a replay puts the
pair back.
-/
structure RedisInv (store : RedisSpentStore) (clock : Int) (h : RedisHistory)
    (s : RedisReplicas) : Prop where
  called : ∀ c, s.Keeps c → c ∈ callsOf h
  remembered : NoReplayAfterExpiry store clock h → ∀ c ∈ callsOf h,
    (s.Keeps c ↔ Remembered store clock h c)

theorem RedisInv.start : RedisInv store clock [] (.start clock) where
  called := by
    rintro c ⟨_, hs, _⟩
    cases hs
  remembered := by simp [callsOf]

theorem RedisInv.step {h : RedisHistory} {s s' : RedisReplicas} {e : RedisEvent}
    {r : Option (Outcome SpendError Unit)}
    (ht : Trace (RedisReplicas.step store) (.start clock) h s) (hinv : RedisInv store clock h s)
    (hstep : s.step store e = some (s', r)) : RedisInv store clock (h ++ [(e, r)]) s' := by
  rcases RedisReplicas.step_cases hstep with ⟨c, hcall, -, hkeeps⟩ | ⟨hcall, -, hkeeps⟩
  · constructor
    · intro d hd
      rw [callsOf_snoc, hcall, List.mem_append]
      rcases (hkeeps d).mp hd with rfl | ⟨hd, -⟩
      · exact .inr (by simp)
      · exact .inl (hinv.called d hd)
    · intro hno d hd
      obtain ⟨hno, hlast⟩ := noReplayAfterExpiry_snoc.mp hno
      rw [hkeeps]
      by_cases hdc : d = c
      · subst hdc
        exact ⟨fun _ => hlast d hcall, fun _ => .inl rfl⟩
      · -- an older pair is lost here exactly when the call finds its set expired
        have hold : d ∈ callsOf h := by
          rw [callsOf_snoc, hcall, List.mem_append] at hd
          rcases hd with hd | hd
          · exact hd
          · exact absurd (List.mem_singleton.mp hd) hdc
        rw [remembered_snoc ht, ← hinv.remembered hno d hold]
        constructor
        · rintro (heq | ⟨hk, hlive⟩)
          · exact absurd heq hdc
          · refine ⟨hk, fun b hb hbd hexp => absurd ⟨?_, ?_⟩ hlive⟩
            · rw [← hbd, ← Option.some.inj (hcall.symm.trans hb)]
            · rw [Option.some.inj (hcall.symm.trans hb), hbd]
              exact hexp
        · rintro ⟨hk, hlive⟩
          refine .inr ⟨hk, ?_⟩
          rintro ⟨hdc1, hexp⟩
          exact hlive c hcall hdc1.symm (hdc1 ▸ hexp) hold
  · constructor
    · intro d hd
      rw [callsOf_snoc, hcall, Option.toList_none, List.append_nil]
      exact hinv.called d ((hkeeps d).mp hd)
    · intro hno d hd
      rw [callsOf_snoc, hcall, Option.toList_none, List.append_nil] at hd
      rw [hkeeps, remembered_snoc ht, hinv.remembered (noReplayAfterExpiry_snoc.mp hno).1 d hd]
      refine ⟨fun hr => ⟨hr, fun b hb => ?_⟩, fun hr => hr.1⟩
      rw [hcall] at hb
      cases hb

theorem redisInv_trace {h : RedisHistory} {s : RedisReplicas}
    (ht : Trace (RedisReplicas.step store) (.start clock) h s) : RedisInv store clock h s :=
  Trace.invariant (RedisInv store clock) RedisInv.start
    (fun _ _ _ _ _ ht hinv hstep => hinv.step ht hstep) ht

/-! ## Answers -/

/-- What decides the last answer of a history, on either side. -/
theorem answers_snoc_iff {h : RedisHistory} {e : RedisEvent} {c : SpendKey}
    {result : Outcome SpendError Unit} (hcall : e.call = some c) :
    answersOf (h ++ [(e, some result)]) =
        (InMemorySpentStore.new.answers (callsOf (h ++ [(e, some result)]))).2 ↔
      answersOf h = (InMemorySpentStore.new.answers (callsOf h)).2 ∧
        result = if c ∈ callsOf h then .err .doubleSpend else .ok () := by
  rw [answersOf_snoc, callsOf_snoc, hcall, Option.toList_some, Option.toList_some,
    InMemorySpentStore.answers_append]
  constructor
  · intro heq
    obtain ⟨h1, h2⟩ := List.append_inj' heq rfl
    exact ⟨h1, List.cons.inj h2 |>.1⟩
  · rintro ⟨h1, h2⟩
    rw [h1, h2]

theorem answers_iff {h : RedisHistory} {s : RedisReplicas}
    (ht : Trace (RedisReplicas.step store) (.start clock) h s) :
    answersOf h = (InMemorySpentStore.new.answers (callsOf h)).2 ↔
      NoReplayAfterExpiry store clock h := by
  induction ht with
  | init => exact ⟨fun _ _ _ _ hnil => absurd hnil (by simp), fun _ => rfl⟩
  | @snoc h s s' e r ht hstep ih =>
    rw [noReplayAfterExpiry_snoc, ← ih]
    rcases RedisReplicas.step_cases hstep with ⟨c, hcall, hr, -⟩ | ⟨hcall, rfl, -⟩
    · have hlast : (∀ d, e.call = some d → Remembered store clock (h ++ [(e, r)]) d) ↔
          Remembered store clock h c ∧ (s.Expired c.1 → c ∉ callsOf h) := by
        rw [show (∀ d, e.call = some d → Remembered store clock (h ++ [(e, r)]) d) ↔
          Remembered store clock (h ++ [(e, r)]) c by simp [hcall], remembered_snoc ht]
        simp [hcall]
      rw [hlast]
      have hresult : ∃ result, r = some result ∧
          (result = .ok () ↔ ¬ (s.Keeps c ∧ ¬ s.Expired c.1)) ∧
          (result = .err .doubleSpend ↔ s.Keeps c ∧ ¬ s.Expired c.1) := by
        rcases hr with ⟨rfl, hk⟩ | ⟨rfl, hk⟩
        · exact ⟨_, rfl, by simp [hk], by simpa using hk⟩
        · exact ⟨_, rfl, by simp [hk], by simp [hk]⟩
      obtain ⟨result, rfl, hok, herr⟩ := hresult
      rw [answers_snoc_iff hcall]
      refine and_congr_right fun hans => ?_
      have hinv := redisInv_trace ht
      by_cases hc : c ∈ callsOf h
      · -- the pair was called before: the server must still have it
        rw [if_pos hc, herr, hinv.remembered (ih.mp hans) c hc]
        simp [hc]
      · -- the pair is new, so the server cannot have it
        rw [if_neg hc, hok]
        refine ⟨fun _ => ⟨?_, fun _ => hc⟩, fun _ hk => hc (hinv.called c hk.1)⟩
        rintro before x after rfl _ _ _ _ _ _ hmem
        refine hc ?_
        rw [callsOf, List.filterMap_append]
        exact List.mem_append.mpr (.inl hmem)
    · rw [answersOf_snoc, callsOf_snoc, hcall, Option.toList_none, Option.toList_none,
        List.append_nil, List.append_nil]
      simp

theorem acceptedOf_snoc (h : RedisHistory) (e : RedisEvent)
    (r : Option (Outcome SpendError Unit)) :
    acceptedOf (h ++ [(e, r)]) =
      acceptedOf h ++ (if r = some (.ok ()) then e.call else none).toList := by
  rw [acceptedOf, List.filterMap_append]
  cases hc : (if r = some (.ok ()) then e.call else none) <;> simp [acceptedOf, hc]

theorem acceptedOf_subset (h : RedisHistory) : acceptedOf h ⊆ callsOf h := by
  intro c hc
  obtain ⟨x, hx, hcall⟩ := List.mem_filterMap.mp hc
  refine List.mem_filterMap.mpr ⟨x, hx, ?_⟩
  split at hcall
  · exact hcall
  · cases hcall

/-- The answers of the in-memory store accept no pair twice. -/
theorem accepted_nodup {h : RedisHistory} {s : RedisReplicas}
    (ht : Trace (RedisReplicas.step store) (.start clock) h s) :
    answersOf h = (InMemorySpentStore.new.answers (callsOf h)).2 → (acceptedOf h).Nodup := by
  induction ht with
  | init => intro _; exact List.nodup_nil
  | @snoc h s s' e r ht hstep ih =>
    intro hans
    rw [acceptedOf_snoc]
    rcases RedisReplicas.step_cases hstep with ⟨c, hcall, hr, -⟩ | ⟨hcall, rfl, -⟩
    · rcases hr with ⟨rfl, -⟩ | ⟨rfl, -⟩
      · obtain ⟨hans, hlast⟩ := (answers_snoc_iff hcall).mp hans
        -- the in-memory store would have refused a pair that was called before
        have hnew : c ∉ callsOf h := by
          intro hc
          rw [if_pos hc] at hlast
          cases hlast
        rw [if_pos rfl, hcall, Option.toList_some, List.nodup_append]
        refine ⟨ih hans, List.nodup_singleton c, fun a ha b hb => ?_⟩
        rw [List.mem_singleton.mp hb]
        rintro rfl
        exact hnew (acceptedOf_subset h ha)
      · obtain ⟨hans, -⟩ := (answers_snoc_iff hcall).mp hans
        simpa using ih hans
    · rw [answersOf_snoc, callsOf_snoc, hcall, Option.toList_none, Option.toList_none,
        List.append_nil, List.append_nil] at hans
      simpa using ih hans

/--
**When the Redis store answers as the in-memory store.** For every time to live, every
interleaving of the replicas' commands and every timing: exactly when no pair is presented again
after a call on its epoch has found the epoch's set expired.
-/
theorem refinesInMemory_iff (ttlSecs : UInt64) (clock : Int) (h : RedisHistory)
    (s : RedisReplicas)
    (ht : Trace (RedisReplicas.step (.connect ttlSecs)) (.start clock) h s) :
    RefinesInMemory h ↔ NoReplayAfterExpiry (.connect ttlSecs) clock h := by
  rw [← answers_iff ht]
  exact ⟨fun href => href.answers, fun hans => ⟨hans, accepted_nodup ht hans⟩⟩

/-- A nonce. -/
def replayedNonce : Bytes 32 := ⟨List.replicate 32 7, rfl⟩

/-- The pair is presented twice, `gap` milliseconds apart. -/
def presentedTwice (gap : Nat) : List RedisEvent :=
  [.check 0 1 replayedNonce, .refresh 0, .wait gap, .check 1 1 replayedNonce]

/-- Within the default time to live of a day, the second presentation is refused. -/
theorem refinesInMemory_within_ttl :
    ∃ h s, Trace (RedisReplicas.step (.connect 86400)) (.start 0) h s ∧
      h.map Prod.fst = presentedTwice 86399000 ∧ RefinesInMemory h ∧
      NoReplayAfterExpiry (.connect 86400) 0 h := by
  have hexec : exec (RedisReplicas.step (.connect 86400)) (.start 0) (presentedTwice 86399000) =
      some (_, [(.check 0 1 replayedNonce, some (.ok ())), (.refresh 0, none),
        (.wait 86399000, none), (.check 1 1 replayedNonce, some (.err .doubleSpend))]) := rfl
  have ht := Trace.of_exec hexec
  have href : RefinesInMemory [(.check 0 1 replayedNonce, some (.ok ())), (.refresh 0, none),
      (.wait 86399000, none), (.check 1 1 replayedNonce, some (.err .doubleSpend))] :=
    ⟨by decide +kernel, by decide +kernel⟩
  exact ⟨_, _, ht, rfl, href, (refinesInMemory_iff _ _ _ _ ht).mp href⟩

/-- A day and a second later, the set of the epoch is gone and the pair is accepted again. -/
theorem expired_set_accepts_replay :
    ¬ ∀ (ttlSecs : UInt64) (clock : Int) (h : RedisHistory) (s : RedisReplicas),
      Trace (RedisReplicas.step (.connect ttlSecs)) (.start clock) h s → RefinesInMemory h := by
  intro hall
  have hexec : exec (RedisReplicas.step (.connect 86400)) (.start 0) (presentedTwice 86401000) =
      some (_, [(.check 0 1 replayedNonce, some (.ok ())), (.refresh 0, none),
        (.wait 86401000, none), (.check 1 1 replayedNonce, some (.ok ()))]) := rfl
  have href := hall 86400 0 _ _ (Trace.of_exec hexec)
  exact absurd href.once (by decide +kernel)

end EatPass
