import EatPass.Infra.Trace
import EatPass.Cli.Issuer

/-!
# The issuer as a list of published keys

Seen from outside, an issuer is the list of the keys it has published, oldest first. A rotation
adds one at the end and nothing else ever changes. `Rotating.Publishes` connects the state of the
process to that list: the current key is the last one, the log has one record for each, and
`/keys/{version}` answers with the latest key of that version.

* `startRotating_publishes`, `Rotating.write_publishes` — the two places where a key is published
* `IssuerProc.publishes_of_trace` — a run only adds keys
* `generatedFrom_trace` — every key was generated in the run
-/

namespace EatPass

open Infra

/-- The published keys, oldest first, each with the time at which it was logged. -/
abbrev Published := List (Issuer × UInt64)

namespace Published

/-- The public part, as the log takes it. -/
def publicKeys (keys : Published) : List (IssuerPublicKey × UInt64) :=
  keys.map fun key => (key.1.public, key.2)

/-- The latest published key of a version. -/
def latest (keys : Published) (version : UInt32) : Option IssuerPublicKey :=
  (keys.reverse.find? fun key => key.1.keyVersion = version).map fun key => key.1.public

theorem publicKeys_append (keys more : Published) :
    (keys ++ more).publicKeys = keys.publicKeys ++ more.publicKeys :=
  List.map_append

@[simp] theorem publicKeys_length (keys : Published) : keys.publicKeys.length = keys.length :=
  List.length_map _

/-- Publishing a key replaces the answer for its version only. -/
theorem latest_append_singleton (keys : Published) (issuer : Issuer) (now : UInt64) :
    (keys ++ [(issuer, now)]).latest
      = Function.update keys.latest issuer.keyVersion (some issuer.public) := by
  funext version
  unfold latest
  rw [List.reverse_append, List.reverse_singleton, List.singleton_append, List.find?_cons]
  by_cases hv : version = issuer.keyVersion
  · rw [hv, Function.update_self]
    simp
  · rw [Function.update_of_ne hv]
    simp [Ne.symm hv]

/-- What is found under a version is a published key of that version. -/
theorem exists_of_latest {keys : Published} {version : UInt32} {pk : IssuerPublicKey}
    (h : keys.latest version = some pk) :
    ∃ key ∈ keys, key.1.public = pk ∧ key.1.keyVersion = version := by
  obtain ⟨key, hfind, rfl⟩ := Option.map_eq_some_iff.mp h
  exact ⟨key, List.mem_reverse.mp (List.mem_of_find?_eq_some hfind), rfl,
    by simpa using List.find?_some hfind⟩

end Published

variable {C : Crypto} {cfg : IssuerConfig C}

/-- The guarded state is what publishing the keys leads to. -/
structure Rotating.Publishes (cfg : IssuerConfig C) (rot : Rotating) (keys : Published) :
    Prop where
  current : ∃ older now, keys = older ++ [(rot.current, now)]
  history : rot.history = keys.latest
  records : rot.log.records = recordsFrom C 0 keys.publicKeys
  signedHead : rot.signedHead = logSignerSign C cfg.logSigner rot.log

namespace Rotating.Publishes

variable {rot : Rotating} {keys : Published}

theorem ne_nil (h : rot.Publishes cfg keys) : keys ≠ [] := by
  obtain ⟨older, now, rfl⟩ := h.current
  simp

/-- The current key is served under its version. -/
theorem history_current (h : rot.Publishes cfg keys) :
    rot.history rot.current.keyVersion = some rot.current.public := by
  obtain ⟨older, now, hkeys⟩ := h.current
  rw [h.history, hkeys, Published.latest_append_singleton, Function.update_self]

theorem current_mem (h : rot.Publishes cfg keys) : ∃ now, (rot.current, now) ∈ keys := by
  obtain ⟨older, now, rfl⟩ := h.current
  exact ⟨now, by simp⟩

theorem records_ne_nil (h : rot.Publishes cfg keys) : rot.log.records ≠ [] := by
  intro hnil
  have hlen := congrArg List.length (h.records.symm.trans hnil)
  rw [recordsFrom_length, Published.publicKeys_length] at hlen
  exact h.ne_nil (List.length_eq_zero_iff.mp hlen)

end Rotating.Publishes

/-! ## The two places where a key is published -/

/-- **A start publishes one key of version 1**, and it cannot fail. -/
theorem startRotating_publishes (cfg : IssuerConfig C) (coins : List UInt8) (now : UInt64) :
    ∃ rot, startRotating cfg coins now = .ok rot ∧
      rot.Publishes cfg [(Issuer.generate C coins 1, now)] := by
  refine ⟨_, rfl, ⟨[], now, rfl⟩, ?_, rfl, rfl⟩
  exact (Published.latest_append_singleton [] _ now).symm

/-- **The write section publishes its key.** -/
theorem Rotating.write_publishes {rot rot' : Rotating} {keys : Published} {newIssuer : Issuer}
    {now : UInt64} {response : RotateResponse} (hpub : rot.Publishes cfg keys)
    (h : rot.write cfg newIssuer now = .ok (rot', response)) :
    rot'.Publishes cfg (keys ++ [(newIssuer, now)]) := by
  unfold Rotating.write at h
  cases happ : rot.log.append C newIssuer.public now with
  | none =>
    simp only [happ] at h
    cases h
  | some p =>
    obtain ⟨log, seq⟩ := p
    simp only [happ] at h
    cases h
    refine ⟨⟨keys, now, rfl⟩, ?_, ?_, rfl⟩
    · rw [Published.latest_append_singleton, ← hpub.history]
      rfl
    · rw [KeyLog.append_records happ, Published.publicKeys_append, recordsFrom_append,
        ← hpub.records, Nat.zero_add, Published.publicKeys_length]
      rw [hpub.records, recordsFrom_length, Published.publicKeys_length]
      rfl

theorem Rotating.write_current {rot rot' : Rotating} {newIssuer : Issuer} {now : UInt64}
    {response : RotateResponse} (h : rot.write cfg newIssuer now = .ok (rot', response)) :
    rot'.current = newIssuer := by
  simp only [Rotating.write] at h
  split at h
  · cases h
  · cases h
    rfl

/-! ## Runs -/

/-- **A step keeps the published keys or adds one.** -/
theorem IssuerProc.publishes_of_step {s s' : IssuerProc cfg} {e : IssuerEvent} {r : IssuerReply}
    {keys : Published} (hpub : s.rot.Publishes cfg keys) (h : s.step e = some (s', r)) :
    ∃ more, s'.rot.Publishes cfg (keys ++ more) := by
  cases IssuerProc.step_cases h with
  | quiet rot => exact ⟨[], by rw [rot, List.append_nil]; exact hpub⟩
  | read task header version _ _ _ _ rot =>
    exact ⟨[], by rw [rot, List.append_nil]; exact hpub⟩
  | generate task coins now version _ _ _ rot =>
    exact ⟨[], by rw [rot, List.append_nil]; exact hpub⟩
  | write task newIssuer now response _ _ _ rot =>
    exact ⟨[(newIssuer, now)], Rotating.write_publishes hpub rot⟩

/-- **A run only adds keys.** -/
theorem IssuerProc.publishes_of_trace {s s' : IssuerProc cfg}
    {h : List (IssuerEvent × IssuerReply)} {keys : Published} (hpub : s.rot.Publishes cfg keys)
    (ht : Trace IssuerProc.step s h s') : ∃ more, s'.rot.Publishes cfg (keys ++ more) := by
  induction ht with
  | init => exact ⟨[], by rw [List.append_nil]; exact hpub⟩
  | snoc _ hs ih =>
    obtain ⟨more, hmore⟩ := ih
    obtain ⟨more', hmore'⟩ := IssuerProc.publishes_of_step hmore hs
    exact ⟨more ++ more', by rw [← List.append_assoc]; exact hmore'⟩

/-- The process that starts to serve. -/
theorem IssuerProc.start_publishes {s : IssuerProc cfg} {coins : List UInt8} {now : UInt64}
    {limiter : cfg.limiter.State} (h : IssuerProc.start cfg coins now limiter = .ok s) :
    s.rot.Publishes cfg [(Issuer.generate C coins 1, now)] ∧ s.tasks = fun _ => none := by
  obtain ⟨rot, hrot, hpub⟩ := startRotating_publishes cfg coins now
  rw [IssuerProc.start, hrot] at h
  cases h
  exact ⟨hpub, rfl⟩

/-! ## Where the keys come from -/

/-- The randomness an event generates a key from. -/
def IssuerEvent.seed : IssuerEvent → Option (List UInt8)
  | .generate _ coins _ => some coins
  | _ => none

/-- The key pair was generated from one of the seeds, for some version. -/
def Issuer.From (C : Crypto) (seeds : List (List UInt8)) (issuer : Issuer) : Prop :=
  ∃ seed ∈ seeds, ∃ version, issuer = Issuer.generate C seed version

theorem Issuer.From.mono {seeds : List (List UInt8)} {issuer : Issuer}
    (h : issuer.From C seeds) (more : List (List UInt8)) : issuer.From C (seeds ++ more) := by
  obtain ⟨seed, hseed, heq⟩ := h
  exact ⟨seed, List.mem_append_left _ hseed, heq⟩

/-- The published keys and the keys of rotations in flight were generated from the seeds. -/
structure GeneratedFrom (seeds : List (List UInt8)) (s : IssuerProc cfg) (keys : Published) :
    Prop where
  publishes : s.rot.Publishes cfg keys
  published : ∀ key ∈ keys, key.1.From C seeds
  waiting : ∀ t issuer now, s.tasks t = some (.generated issuer now) → issuer.From C seeds

namespace GeneratedFrom

variable {seeds : List (List UInt8)} {s s' : IssuerProc cfg} {keys : Published}

/-- A step that publishes and generates nothing. -/
theorem keep (h : GeneratedFrom seeds s keys) (hrot : s'.rot = s.rot)
    (htasks : ∀ t issuer now, s'.tasks t = some (.generated issuer now) →
      s.tasks t = some (.generated issuer now)) (more : List (List UInt8)) :
    GeneratedFrom (seeds ++ more) s' keys where
  publishes := hrot ▸ h.publishes
  published := fun key hkey => (h.published key hkey).mono more
  waiting := fun t issuer now ht => (h.waiting t issuer now (htasks t issuer now ht)).mono more

/-- A rotation generates a key. -/
theorem generate {task : Nat} {seed : List UInt8} {version : UInt32} {now : UInt64}
    (h : GeneratedFrom seeds s keys) (hrot : s'.rot = s.rot)
    (htasks : s'.tasks = Function.update s.tasks task
      (some (.generated (Issuer.generate C seed version) now))) :
    GeneratedFrom (seeds ++ [seed]) s' keys := by
  refine ⟨hrot ▸ h.publishes, fun key hkey => (h.published key hkey).mono _, ?_⟩
  intro t issuer time ht
  rw [htasks, Function.update_apply] at ht
  split at ht
  · cases ht
    exact ⟨seed, by simp, version, rfl⟩
  · exact (h.waiting t issuer time ht).mono _

/-- A rotation publishes the key it has generated. -/
theorem write {task : Nat} {issuer : Issuer} {now : UInt64} {response : RotateResponse}
    (h : GeneratedFrom seeds s keys) (hgen : s.tasks task = some (.generated issuer now))
    (hwrite : s.rot.write cfg issuer now = .ok (s'.rot, response))
    (htasks : s'.tasks = Function.update s.tasks task none) :
    GeneratedFrom seeds s' (keys ++ [(issuer, now)]) := by
  refine ⟨Rotating.write_publishes h.publishes hwrite, ?_, ?_⟩
  · intro key hkey
    rcases List.mem_append.mp hkey with hkey | hkey
    · exact h.published key hkey
    · rw [List.mem_singleton.mp hkey]
      exact h.waiting task issuer now hgen
  · intro t i n ht
    rw [htasks, Function.update_apply] at ht
    split at ht
    · cases ht
    · exact h.waiting t i n ht

theorem step {e : IssuerEvent} {r : IssuerReply} (h : GeneratedFrom seeds s keys)
    (hstep : s.step e = some (s', r)) :
    ∃ more, GeneratedFrom (seeds ++ e.seed.toList) s' (keys ++ more) := by
  cases IssuerProc.step_cases hstep with
  | quiet rot tasks event reply =>
    refine ⟨[], ?_⟩
    rw [List.append_nil]
    exact h.keep rot (fun t i n => tasks t _) _
  | read task header version event reply free next rot tasks =>
    refine ⟨[], ?_⟩
    rw [List.append_nil]
    refine h.keep rot (fun t i n ht => ?_) _
    rw [tasks, Function.update_apply] at ht
    split at ht
    · cases ht
    · exact ht
  | generate task coins now version event reply read rot tasks =>
    subst event
    refine ⟨[], ?_⟩
    rw [List.append_nil]
    exact h.generate rot tasks
  | write task newIssuer now response event reply generated rot tasks =>
    subst event
    refine ⟨[(newIssuer, now)], ?_⟩
    rw [show (IssuerEvent.write task).seed = none from rfl, Option.toList_none, List.append_nil]
    exact h.write generated rot tasks

theorem start {coins : List UInt8} {now : UInt64} {limiter : cfg.limiter.State}
    (h : IssuerProc.start cfg coins now limiter = .ok s) :
    GeneratedFrom [coins] s [(Issuer.generate C coins 1, now)] := by
  obtain ⟨hpub, htasks⟩ := IssuerProc.start_publishes h
  refine ⟨hpub, ?_, ?_⟩
  · intro key hkey
    rw [List.mem_singleton.mp hkey]
    exact ⟨coins, List.mem_singleton.mpr rfl, 1, rfl⟩
  · intro t issuer time ht
    rw [htasks] at ht
    cases ht

end GeneratedFrom

/-- The seeds of a run, the first one of the start. -/
def seedsOf (coins : List UInt8) (h : List (IssuerEvent × IssuerReply)) : List (List UInt8) :=
  coins :: h.filterMap fun x => x.1.seed

theorem seedsOf_snoc (coins : List UInt8) (h : List (IssuerEvent × IssuerReply))
    (x : IssuerEvent × IssuerReply) :
    seedsOf coins (h ++ [x]) = seedsOf coins h ++ x.1.seed.toList := by
  rw [seedsOf, seedsOf, List.filterMap_append, List.cons_append]
  cases hx : x.1.seed <;> simp [hx]

/-- **Every published key was generated in the run.** -/
theorem generatedFrom_trace {s₀ s : IssuerProc cfg} {coins : List UInt8} {now : UInt64}
    {limiter : cfg.limiter.State} (hstart : IssuerProc.start cfg coins now limiter = .ok s₀)
    {h : List (IssuerEvent × IssuerReply)} (ht : Trace IssuerProc.step s₀ h s) :
    ∃ keys, GeneratedFrom (seedsOf coins h) s keys := by
  induction ht with
  | init => exact ⟨_, GeneratedFrom.start hstart⟩
  | @snoc h s s' e r _ hstep ih =>
    obtain ⟨keys, hkeys⟩ := ih
    obtain ⟨more, hmore⟩ := hkeys.step hstep
    exact ⟨keys ++ more, by rw [seedsOf_snoc]; exact hmore⟩

end EatPass
