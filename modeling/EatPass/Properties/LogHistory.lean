import EatPass.Core.Sample
import EatPass.Cli.Client

/-!
# Accepted logs only grow

A client that hands the printed head from each run to the next never accepts two logs of which the
later one drops, alters or reorders a record of the earlier one. The operator is not trusted: it
may sign anything it likes. What the result rests on is that the messages hashed in these runs do
not collide.

* `extends_of_accepted` — two consecutive runs
* `accepted_history_extends` — any number of runs
-/

namespace EatPass

open Infra

variable {C : Crypto} {p : Profile} {logPub : Bytes 32}

/-- Read as entries, the records of the earlier log begin the records of the later one. -/
def RecordsExtend (earlier later : List KeyRecord) : Prop :=
  ∃ es fs, readAll earlier = .ok es ∧ readAll later = .ok fs ∧ es <+: fs

theorem RecordsExtend.trans {a b c : List KeyRecord} (h₁ : RecordsExtend a b)
    (h₂ : RecordsExtend b c) : RecordsExtend a c := by
  obtain ⟨es, fs, hes, hfs, hpre⟩ := h₁
  obtain ⟨fs', gs, hfs', hgs, hpre'⟩ := h₂
  rw [hfs] at hfs'
  cases hfs'
  exact ⟨es, gs, hes, hgs, hpre.trans hpre'⟩

/-- The later run was given the line the earlier one printed, and accepted it. -/
def ConsistentWith (C : Crypto) (earlier later : KtResponse) : Prop :=
  ∃ old, parseKnownHead (ktHeadLine earlier.signedHead) = .ok old ∧
    verifyConsistency C old later.records = .ok ()

/-- Client runs that all accepted, in order. -/
structure AcceptedRuns (C : Crypto) (p : Profile) (logPub : Bytes 32)
    (runs : List KtResponse) : Prop where
  verified : ∀ kt ∈ runs, verifyLog C p logPub kt.records kt.signedHead = .ok ()
  consistent : runs.IsChain (ConsistentWith C)

/-- The messages hashed by the checks of the runs. -/
def runMessages (C : Crypto) (runs : List KtResponse) : Set (List UInt8) :=
  { m | ∃ kt ∈ runs, ∃ es, readAll kt.records = .ok es ∧ m ∈ chainMessages C es }

/-! ## The program's runs -/

/-- Runs of `eat-pass token`: the argument of the next run is the line printed by this one. -/
inductive TokenRuns (C : Crypto) (p : Profile) (logPub : Bytes 32) :
    Option String → List KtResponse → Prop
  | nil (arg : Option String) : TokenRuns C p logPub arg []
  | cons {arg : Option String} {known : Option SignedHead} {pk : IssuerPublicKey}
      {kt : KtResponse} {seq : UInt64} {line : String} {rest : List KtResponse} :
      knownHeadArg arg = .ok known → ktChecks C p logPub known pk kt = .ok (seq, line) →
      TokenRuns C p logPub (some line) rest → TokenRuns C p logPub arg (kt :: rest)

/-- What a run that went through has checked. -/
theorem ktChecks_ok {known : Option SignedHead} {pk : IssuerPublicKey} {kt : KtResponse}
    {seq : UInt64} {line : String} (h : ktChecks C p logPub known pk kt = .ok (seq, line)) :
    verifyLog C p logPub kt.records kt.signedHead = .ok () ∧
      line = ktHeadLine kt.signedHead ∧
      ∀ old ∈ known, verifyConsistency C old kt.records = .ok () := by
  simp only [ktChecks, Outcome.bind_eq_ok, Outcome.mapErr_eq_ok] at h
  obtain ⟨_, _, _, hlog, _, _, h⟩ := h
  refine ⟨hlog, ?_⟩
  cases known with
  | none =>
    simp only [Outcome.pure_eq_ok, Outcome.ok.injEq, Prod.mk.injEq] at h
    exact ⟨h.2.symm, by simp⟩
  | some old =>
    simp only [Outcome.bind_eq_ok, Outcome.mapErr_eq_ok, Outcome.pure_eq_ok, Outcome.ok.injEq,
      Prod.mk.injEq] at h
    obtain ⟨_, hcons, _, hline⟩ := h
    refine ⟨hline.symm, ?_⟩
    intro old' ho
    cases ho
    exact hcons

/-- **Runs of the program are accepted runs.** -/
theorem TokenRuns.accepted {arg : Option String} {runs : List KtResponse}
    (h : TokenRuns C p logPub arg runs) : AcceptedRuns C p logPub runs := by
  induction h with
  | nil => exact ⟨by simp, .nil⟩
  | @cons arg known pk kt seq line rest harg hchk hrest ih =>
    obtain ⟨hlog, hline, _⟩ := ktChecks_ok hchk
    refine ⟨?_, ?_⟩
    · intro k hk
      rcases List.mem_cons.mp hk with rfl | hk
      · exact hlog
      · exact ih.verified k hk
    · cases hrest with
      | nil => exact .singleton _
      | @cons _ known' pk' kt' seq' line' rest' harg' hchk' _ =>
        refine List.isChain_cons_cons.mpr ⟨?_, ih.consistent⟩
        simp only [knownHeadArg, Outcome.bind_eq_ok, Outcome.pure_eq_ok, Outcome.ok.injEq] at harg'
        obtain ⟨old, hold, rfl⟩ := harg'
        exact ⟨old, hline ▸ hold, (ktChecks_ok hchk').2.2 old rfl⟩

/-! ## Two runs, and all of them -/

/--
Two consecutive runs. The head seen by the first reappears in the second chain after as many
records as the first log has, so the records up to there are the same. A log of the first run
that is empty (its `seq` wrapped around) leaves no head that the second run could accept.
-/
theorem extends_of_accepted {M : Set (List UInt8)} (hM : C.CollisionFree M) {a b : KtResponse}
    (hma : ∀ es, readAll a.records = .ok es → ∀ m ∈ chainMessages C es, m ∈ M)
    (hmb : ∀ es, readAll b.records = .ok es → ∀ m ∈ chainMessages C es, m ∈ M)
    (ha : verifyLog C p logPub a.records a.signedHead = .ok ())
    (hb : verifyLog C p logPub b.records b.signedHead = .ok ())
    (hc : ConsistentWith C a b) : RecordsExtend a.records b.records := by
  obtain ⟨hlena, es, hes, hheada⟩ := verifyLog_ok ha
  obtain ⟨hlenb, _⟩ := verifyLog_ok hb
  obtain ⟨old, hold, hcons⟩ := hc
  rw [parseKnownHead_ktHeadLine hheada] at hold
  cases hold
  rw [verifyConsistency_trim] at hcons
  obtain ⟨fs, hfs, hlt, hhead⟩ := verifyConsistency_eq_ok.mp hcons
  rw [hheada] at hhead
  have hlenes := readAll_length hes
  have hlenfs := readAll_length hfs
  have hwrap : b.records.length < 2 ^ 64 := hlenb ▸ Nat.mod_lt _ (by decide)
  have hcount : es.length = (fs.take (a.signedHead.seq.toNat + 1)).length := by
    rw [List.length_take, hlenes, hlena, Nat.mod_eq_of_lt (by omega)]
    omega
  -- one head for as many entries: they are the same by collision freedom
  have heq : es = fs.take (a.signedHead.seq.toNat + 1) := by
    refine entries_eq_of_head_eq C hM (hma es hes) ?_ hcount (Outcome.ok.inj hhead)
    exact fun m hm => hmb fs hfs m (chainMessages_take_subset C fs _ hm)
  exact ⟨es, fs, hes, hfs, heq ▸ List.take_prefix _ _⟩

/--
**No record once accepted is later altered, dropped or reordered.** Over any number of accepted
runs, the records of an earlier run begin the records of every later one.
-/
theorem accepted_history_extends {runs : List KtResponse}
    (hM : C.CollisionFree (runMessages C runs)) (h : AcceptedRuns C p logPub runs) :
    ∀ (i j : Nat) (hij : i ≤ j) (hj : j < runs.length),
      RecordsExtend (runs[i]).records (runs[j]).records := by
  have hmem : ∀ k (hk : k < runs.length), ∀ es, readAll (runs[k]).records = .ok es →
      ∀ m ∈ chainMessages C es, m ∈ runMessages C runs :=
    fun k hk es hes m hm => ⟨runs[k], List.getElem_mem hk, es, hes, hm⟩
  intro i j hij
  induction j, hij using Nat.le_induction with
  | base =>
    intro hj
    obtain ⟨_, es, hes, _⟩ := verifyLog_ok (h.verified _ (List.getElem_mem hj))
    exact ⟨es, es, hes, hes, List.prefix_refl es⟩
  | succ j hij ih =>
    intro hj
    have hlast : RecordsExtend (runs[j]).records (runs[j + 1]).records :=
      extends_of_accepted hM (hmem j (by omega)) (hmem (j + 1) hj)
        (h.verified _ (List.getElem_mem _)) (h.verified _ (List.getElem_mem _))
        (List.isChain_iff_getElem.mp h.consistent j (by omega))
    exact (ih (by omega)).trans hlast

/-- An issuer's two keys, in the order it published them. -/
def sampleKeys : List (IssuerPublicKey × UInt64) := [(⟨1, alg, [1]⟩, 1000), (⟨2, alg, [2]⟩, 2000)]

/-- The operator's log once the first `n` of the keys are published. -/
def sampleLog (n : Nat) : KeyLog :=
  KeyLog.ofKeys Crypto.sample (sampleKeys.take n) (by simp [sampleKeys, isizeMax])

/-- What an honest operator serves then. -/
def sampleKt (n : Nat) : KtResponse where
  logPub := String.ofList (Hex.encode (logSignerPublic Crypto.sample sampleSigningKey).val)
  records := (sampleLog n).records
  signedHead := logSignerSign Crypto.sample sampleSigningKey (sampleLog n)

theorem sampleMessages_collisionFree :
    ∀ a ∈ chainMessages Crypto.sample (entriesFrom Crypto.sample 0 sampleKeys),
    ∀ b ∈ chainMessages Crypto.sample (entriesFrom Crypto.sample 0 sampleKeys),
      Crypto.sample.sha256 a = Crypto.sample.sha256 b → a = b := by
  decide +kernel

theorem accepted_history_extends_two_runs :
    RecordsExtend (sampleKt 1).records (sampleKt 2).records := by
  have hruns : AcceptedRuns Crypto.sample .release
      (logSignerPublic Crypto.sample sampleSigningKey) [sampleKt 1, sampleKt 2] := by
    refine ⟨?_, .cons_cons ⟨_, parseKnownHead_ktHeadLine (parseHead_sign _ _ _), ?_⟩
      (.singleton _)⟩
    · intro kt hkt
      simp only [List.mem_cons, List.not_mem_nil, or_false] at hkt
      rcases hkt with rfl | rfl <;>
        exact verifyLog_sign _ Faest.sample_complete _ _ _ (List.cons_ne_nil _ _)
    · rw [verifyConsistency_trim]
      exact verifyConsistency_sign _ _ (List.cons_ne_nil _ _)
        (recordsFrom_mono _ (List.take_prefix_take_left (by decide)) 0)
  refine accepted_history_extends (Crypto.collisionFree_of_list ?_ sampleMessages_collisionFree)
    hruns 0 1 (by decide) (by decide)
  · rintro m ⟨kt, hkt, es, hes, hm⟩
    have hread : ∀ n, readAll (sampleKt n).records
        = .ok (entriesFrom Crypto.sample 0 (sampleKeys.take n)) :=
      fun n => readAll_recordsFrom Crypto.sample _ 0
    simp only [List.mem_cons, List.not_mem_nil, or_false] at hkt
    rcases hkt with rfl | rfl
    · rw [hread] at hes
      cases hes
      exact chainMessages_take_subset Crypto.sample
        (entriesFrom Crypto.sample 0 sampleKeys) 1 hm
    · rw [hread] at hes
      cases hes
      exact hm

end EatPass
