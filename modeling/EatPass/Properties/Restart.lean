import EatPass.Properties.Served

/-!
# Restarts under one log seed

`issuer::run` reads the seed of the log key from the environment, so that clients can pin the key,
but keeps the log in memory. A restart begins a new log with a new key of version 1, and the same
log key signs a second head with `seq` 0. The history of a deployment is a run of `Deployment.step`
in which a start may come at any time.

* `nonEquivocating_of_single_start` — one start: no two heads for one `seq`, every later log is
  consistent with every earlier head
* `single_start_of_nonEquivocating` — a second start breaks that
-/

namespace EatPass

open Infra

variable {C : Crypto}

/-- An issuer process and what it was started with. -/
structure RunningIssuer (C : Crypto) where
  cfg : IssuerConfig C
  proc : IssuerProc cfg

/-- The service is not running before its first start. -/
abbrev Deployment (C : Crypto) := Option (RunningIssuer C)

inductive DeploymentEvent (C : Crypto) where
  /-- A start or a restart. The log signer of the settings is replaced by the one of the seed. -/
  | start (settings : IssuerConfig C) (coins : List UInt8) (now : UInt64)
      (limiter : settings.limiter.State)
  | serve (e : IssuerEvent)

/-- The settings with `LogSigner::from_seed`. -/
def IssuerConfig.withSeed (settings : IssuerConfig C) (seed : Bytes 32) : IssuerConfig C :=
  { settings with logSigner := C.faest.signingKeyFromSeed seed }

/-- One step of a deployment with a fixed `EATPASS_KT_SEED`. A start ends the process before it. -/
def Deployment.step (ktSeed : Option String) (d : Deployment C) :
    DeploymentEvent C → Option (Deployment C × IssuerReply)
  | .start settings coins now limiter =>
    match ktSeedFromEnv ktSeed with
    | .ok seed =>
      match IssuerProc.start (settings.withSeed seed) coins now limiter with
      | .ok proc => some (some ⟨settings.withSeed seed, proc⟩, .working)
      | _ => none
    | _ => none
  | .serve e =>
    match d with
    | none => none
    | some running =>
      (running.proc.step e).map fun (proc, r) => (some ⟨running.cfg, proc⟩, r)

/-- The randomness and the time of a start. -/
def startOf : DeploymentEvent C × IssuerReply → Option (List UInt8 × UInt64)
  | (.start _ coins now _, _) => some (coins, now)
  | (.serve _, _) => none

/-- The starts in a history. -/
def startsOf (h : List (DeploymentEvent C × IssuerReply)) : List (List UInt8 × UInt64) :=
  h.filterMap startOf

/--
What one log key has committed to over a history. The head that was signed last is always the one
in the state, so the signed heads are the heads of the states that were reached.
-/
structure NonEquivocating (ktSeed : Option String) (h : List (DeploymentEvent C × IssuerReply)) :
    Prop where
  one_head : ∀ h₁ h₂ a b, h₁ <+: h → h₂ <+: h →
    Trace (Deployment.step ktSeed) none h₁ (some a) →
    Trace (Deployment.step ktSeed) none h₂ (some b) →
    a.proc.rot.signedHead.seq = b.proc.rot.signedHead.seq →
    a.proc.rot.signedHead.head = b.proc.rot.signedHead.head
  consistent : ∀ h₁ h₂ a b, h₁ <+: h₂ → h₂ <+: h →
    Trace (Deployment.step ktSeed) none h₁ (some a) →
    Trace (Deployment.step ktSeed) none h₂ (some b) →
    verifyConsistency C a.proc.rot.signedHead (b.proc.rot.kt b.cfg).records = .ok ()

/-! ## One process -/

variable {ktSeed : Option String}

theorem startsOf_append (h₁ h₂ : List (DeploymentEvent C × IssuerReply)) :
    startsOf (h₁ ++ h₂) = startsOf h₁ ++ startsOf h₂ :=
  List.filterMap_append

/-- What a start leads to. -/
theorem Deployment.step_start {d d' : Deployment C} {settings : IssuerConfig C}
    {coins : List UInt8} {now : UInt64} {limiter : settings.limiter.State} {r : IssuerReply}
    (h : Deployment.step ktSeed d (.start settings coins now limiter) = some (d', r)) :
    ∃ running, d' = some running ∧
      running.proc.rot.Publishes running.cfg [(Issuer.generate C coins 1, now)] := by
  simp only [Deployment.step] at h
  split at h
  · next seed _ =>
    split at h
    · next proc hproc =>
      cases h
      exact ⟨_, rfl, (IssuerProc.start_publishes hproc).1⟩
    · cases h
  · cases h

/-- Without a start in between, the process goes on and only adds keys. -/
theorem Deployment.publishes_of_trace {h : List (DeploymentEvent C × IssuerReply)}
    {running : RunningIssuer C} {d : Deployment C} {keys : Published}
    (hpub : running.proc.rot.Publishes running.cfg keys)
    (ht : Trace (Deployment.step ktSeed) (some running) h d) (hno : startsOf h = []) :
    ∃ proc : IssuerProc running.cfg, d = some ⟨running.cfg, proc⟩ ∧
      ∃ more, proc.rot.Publishes running.cfg (keys ++ more) := by
  induction ht with
  | init => exact ⟨running.proc, rfl, [], by rw [List.append_nil]; exact hpub⟩
  | @snoc h d₁ d₂ e r _ hstep ih =>
    rw [startsOf_append] at hno
    obtain ⟨hno, hlast⟩ := List.append_eq_nil_iff.mp hno
    obtain ⟨proc, rfl, more, hmore⟩ := ih hno
    cases e with
    | start settings coins now limiter => simp [startsOf, startOf] at hlast
    | serve e =>
      obtain ⟨⟨proc', r'⟩, hproc, hsome⟩ := Option.map_eq_some_iff.mp hstep
      cases hsome
      obtain ⟨more', hmore'⟩ := IssuerProc.publishes_of_step hmore hproc
      exact ⟨proc', rfl, more ++ more', by rw [← List.append_assoc]; exact hmore'⟩

/-- A running process was started, and has published some keys. -/
theorem Deployment.exists_publishes {h : List (DeploymentEvent C × IssuerReply)}
    {running : RunningIssuer C} (ht : Trace (Deployment.step ktSeed) none h (some running)) :
    startsOf h ≠ [] ∧ ∃ keys, running.proc.rot.Publishes running.cfg keys := by
  generalize hd : some running = d at ht
  induction ht generalizing running with
  | init => cases hd
  | @snoc h d₁ d₂ e r _ hstep ih =>
    subst hd
    rw [startsOf_append]
    cases e with
    | start settings coins now limiter =>
      obtain ⟨_, heq, hpub⟩ := Deployment.step_start hstep
      cases heq
      exact ⟨by simp [startsOf, startOf], _, hpub⟩
    | serve e =>
      cases d₁ with
      | none => cases hstep
      | some before =>
        obtain ⟨hne, keys, hpub⟩ := ih rfl
        obtain ⟨⟨proc', r'⟩, hproc, hsome⟩ := Option.map_eq_some_iff.mp hstep
        cases hsome
        obtain ⟨more, hmore⟩ := IssuerProc.publishes_of_step hpub hproc
        exact ⟨fun hnil => hne (List.append_eq_nil_iff.mp hnil).1, keys ++ more, hmore⟩

/-- With a single start, two states of a history are states of one process. -/
theorem Deployment.same_process {h₁ h₂ h : List (DeploymentEvent C × IssuerReply)}
    {a b : RunningIssuer C} (hsingle : (startsOf h).length ≤ 1) (h12 : h₁ <+: h₂) (h2 : h₂ <+: h)
    (ha : Trace (Deployment.step ktSeed) none h₁ (some a))
    (hb : Trace (Deployment.step ktSeed) none h₂ (some b)) :
    ∃ keys more, a.proc.rot.Publishes a.cfg keys ∧
      b.proc.rot.Publishes a.cfg (keys ++ more) := by
  obtain ⟨hne, keys, hkeys⟩ := Deployment.exists_publishes ha
  obtain ⟨rest, rfl⟩ := h12
  obtain ⟨tail, rfl⟩ := h2
  have hno : startsOf rest = [] := by
    rw [startsOf_append, startsOf_append, List.length_append, List.length_append] at hsingle
    have hpos := List.length_pos_iff.mpr hne
    exact List.length_eq_zero_iff.mp (by omega)
  obtain ⟨d, hd, hrest⟩ := Trace.append_iff.mp hb
  cases Trace.state_unique ha hd
  obtain ⟨proc, hsome, more, hmore⟩ := Deployment.publishes_of_trace hkeys hrest hno
  cases hsome
  exact ⟨keys, more, hkeys, hmore⟩

/-- A log is the list of its records. -/
theorem KeyLog.eq_of_records {a b : KeyLog} (h : a.records = b.records) : a = b := by
  cases a
  cases b
  cases h
  rfl

/-- As many published keys with the same beginning: the same head. -/
theorem Rotating.Publishes.head_eq {cfg : IssuerConfig C} {a b : Rotating} {keys more : Published}
    (ha : a.Publishes cfg keys) (hb : b.Publishes cfg (keys ++ more))
    (hseq : a.signedHead.seq = b.signedHead.seq) : a.signedHead = b.signedHead := by
  have hlen : ∀ {rot : Rotating} {ks : Published}, rot.Publishes cfg ks →
      rot.signedHead.seq.toNat = ks.length - 1 := by
    intro rot ks hrot
    rw [hrot.signedHead, seq_sign, hrot.records, recordsFrom_length, Published.publicKeys_length]
  have hmore : more = [] := by
    have hpos := List.length_pos_iff.mpr ha.ne_nil
    have h1 := hlen ha
    have h2 := hlen hb
    rw [hseq, h2, List.length_append] at h1
    exact List.length_eq_zero_iff.mp (by omega)
  rw [ha.signedHead, hb.signedHead]
  refine congrArg _ (KeyLog.eq_of_records ?_)
  rw [ha.records, hb.records, hmore, List.append_nil]

/-- **With a single start the log key never equivocates.** -/
theorem nonEquivocating_of_single_start {h : List (DeploymentEvent C × IssuerReply)}
    (hsingle : (startsOf h).length ≤ 1) : NonEquivocating ktSeed h where
  one_head := by
    intro h₁ h₂ a b h1 h2 ha hb hseq
    rcases List.prefix_or_prefix_of_prefix h1 h2 with h12 | h21
    · obtain ⟨keys, more, hka, hkb⟩ := Deployment.same_process hsingle h12 h2 ha hb
      rw [hka.head_eq hkb hseq]
    · obtain ⟨keys, more, hkb, hka⟩ := Deployment.same_process hsingle h21 h1 hb ha
      rw [hkb.head_eq hka hseq.symm]
  consistent := by
    intro h₁ h₂ a b h12 h2 ha hb
    obtain ⟨keys, more, hka, hkb⟩ := Deployment.same_process hsingle h12 h2 ha hb
    exact hka.verifyConsistency_kt hkb

/-! ## A second start -/

/-- The only entry of the log that a start signs. -/
def startEntry (C : Crypto) (coins : List UInt8) (now : UInt64) : LogEntry :=
  LogEntry.ofKey C 0 (Issuer.generate C coins 1).public now

/-- What is hashed for the keys and the heads of the starts. -/
def startMessages (C : Crypto) (h : List (DeploymentEvent C × IssuerReply)) : Set (List UInt8) :=
  { m | ∃ coins now, (coins, now) ∈ startsOf h ∧
    (m ∈ chainMessages C [startEntry C coins now] ∨ m = (C.pomfrit.keygen coins).1) }

/-- A start signs `seq` 0 over its one entry. -/
theorem Rotating.Publishes.start_head {cfg : IssuerConfig C} {rot : Rotating} {coins : List UInt8}
    {now : UInt64} (h : rot.Publishes cfg [(Issuer.generate C coins 1, now)]) :
    rot.signedHead.seq = 0 ∧
      rot.signedHead.head
        = String.ofList (Hex.encode (entriesHead C [startEntry C coins now]).val) := by
  have hread : readAll rot.log.records = .ok [startEntry C coins now] := by
    rw [h.records]
    exact readAll_recordsFrom C _ 0
  constructor
  · rw [h.signedHead, logSignerSign, h.records]
    rfl
  · rw [h.signedHead, ← KeyLog.head_eq C hread]
    rfl

/-- The state after a start in a history. -/
theorem Deployment.after_start {before after : List (DeploymentEvent C × IssuerReply)}
    {d : Deployment C} {x : DeploymentEvent C × IssuerReply} {start : List UInt8 × UInt64}
    (ht : Trace (Deployment.step ktSeed) none (before ++ x :: after) d)
    (hx : startOf x = some start) :
    ∃ running, Trace (Deployment.step ktSeed) none (before ++ [x]) (some running) ∧
      running.proc.rot.Publishes running.cfg [(Issuer.generate C start.1 1, start.2)] := by
  obtain ⟨e, r⟩ := x
  obtain ⟨d₁, d₂, h1, hstep, _⟩ := Trace.split_iff.mp ht
  cases e with
  | serve e => cases hx
  | start settings coins now limiter =>
    cases hx
    obtain ⟨running, rfl, hpub⟩ := Deployment.step_start hstep
    exact ⟨running, Trace.snoc_iff.mpr ⟨d₁, h1, hstep⟩, hpub⟩

/-- The first start in a history. -/
theorem exists_split_of_startsOf {h : List (DeploymentEvent C × IssuerReply)}
    {start : List UInt8 × UInt64} {rest : List (List UInt8 × UInt64)}
    (hs : startsOf h = start :: rest) :
    ∃ before x after, h = before ++ x :: after ∧ startOf x = some start ∧
      startsOf after = rest := by
  obtain ⟨before, x, after, rfl, _, hx, hrest⟩ := List.filterMap_eq_cons_iff.mp hs
  exact ⟨before, x, after, rfl, hx, hrest⟩

/-- Equal heads of two starts come from equal keys. -/
theorem startKey_eq_of_head_eq {M : Set (List UInt8)} (hM : C.CollisionFree M)
    {x y : List UInt8 × UInt64}
    (hx : ∀ m, m ∈ chainMessages C [startEntry C x.1 x.2] ∨ m = (C.pomfrit.keygen x.1).1 → m ∈ M)
    (hy : ∀ m, m ∈ chainMessages C [startEntry C y.1 y.2] ∨ m = (C.pomfrit.keygen y.1).1 → m ∈ M)
    (hhead : entriesHead C [startEntry C x.1 x.2] = entriesHead C [startEntry C y.1 y.2]) :
    (C.pomfrit.keygen x.1).1 = (C.pomfrit.keygen y.1).1 := by
  have hentry := entries_eq_of_head_eq C hM (fun m hm => hx m (.inl hm))
    (fun m hm => hy m (.inl hm)) rfl hhead
  have htkid := congrArg LogEntry.tokenKeyId (List.singleton_inj.mp hentry)
  exact hM (hx _ (.inr rfl)) (hy _ (.inr rfl)) htkid

/-- A history in which the log key never equivocated has a single start: a second one signs another
head for `seq` 0. -/
theorem single_start_of_nonEquivocating {h : List (DeploymentEvent C × IssuerReply)}
    {d : Deployment C} (ht : Trace (Deployment.step ktSeed) none h d)
    (hkeys : ((startsOf h).map fun start => (C.pomfrit.keygen start.1).1).Nodup)
    (hM : C.CollisionFree (startMessages C h)) (hne : NonEquivocating ktSeed h) :
    (startsOf h).length ≤ 1 := by
  match hs : startsOf h with
  | [] => simp
  | [_] => simp
  | x :: y :: rest =>
    exfalso
    have hmem : ∀ z ∈ startsOf h, ∀ m, m ∈ chainMessages C [startEntry C z.1 z.2] ∨
        m = (C.pomfrit.keygen z.1).1 → m ∈ startMessages C h :=
      fun z hz m hm => ⟨z.1, z.2, hz, hm⟩
    obtain ⟨l₁, a, tail, hh, ha, htail⟩ := exists_split_of_startsOf hs
    obtain ⟨l₂, b, l₃, rfl, hb, _⟩ := exists_split_of_startsOf htail
    have hh' : h = (l₁ ++ a :: l₂) ++ b :: l₃ := by rw [hh, List.append_assoc]; rfl
    obtain ⟨p, hp, hppub⟩ := Deployment.after_start (hh ▸ ht) ha
    obtain ⟨q, hq, hqpub⟩ := Deployment.after_start (hh' ▸ ht) hb
    obtain ⟨hpseq, hphead⟩ := hppub.start_head
    obtain ⟨hqseq, hqhead⟩ := hqpub.start_head
    -- both logs have one record, so one seq, and must then have one head
    have hsame := hne.one_head _ _ p q ⟨l₂ ++ b :: l₃, by rw [hh]; simp⟩
      ⟨l₃, by rw [hh']; simp⟩ hp hq (by rw [hpseq, hqseq])
    rw [hphead, hqhead, String.ofList_inj] at hsame
    have hkey := startKey_eq_of_head_eq hM (hmem x (by simp [hs])) (hmem y (by simp [hs]))
      (Subtype.ext (Hex.encode_injective hsame))
    rw [hs] at hkeys
    simp [hkey] at hkeys

/--
**Over a history of starts and rotations under one seed, the log key never equivocates exactly when
there was no restart.** The second direction needs that the generated keys are different and that
the hashes do not collide.
-/
theorem nonEquivocating_iff_single_start {h : List (DeploymentEvent C × IssuerReply)}
    {d : Deployment C} (ht : Trace (Deployment.step ktSeed) none h d)
    (hkeys : ((startsOf h).map fun start => (C.pomfrit.keygen start.1).1).Nodup)
    (hM : C.CollisionFree (startMessages C h)) :
    NonEquivocating ktSeed h ↔ (startsOf h).length ≤ 1 :=
  ⟨single_start_of_nonEquivocating ht hkeys hM, nonEquivocating_of_single_start⟩

/-- The value of `EATPASS_KT_SEED` for `sampleSigningKey`. -/
def sampleSeed : Option String := some (String.ofList (Hex.encode sampleSigningKey.val))

theorem nonEquivocating_first_start :
    ∃ (d : Deployment Crypto.sample) (h : List (DeploymentEvent Crypto.sample × IssuerReply)),
      exec (Deployment.step sampleSeed) none [.start (sampleConfig []) [1] 1000 (), .serve .kt]
        = some (d, h) ∧ (NonEquivocating sampleSeed h ↔ (startsOf h).length ≤ 1) := by
  have hexec : exec (Deployment.step sampleSeed) none
      [.start (sampleConfig []) [1] 1000 (), .serve .kt] = some (_, _) := rfl
  refine ⟨_, _, hexec, nonEquivocating_iff_single_start (Trace.of_exec hexec) ?_ ?_⟩
  · exact List.pairwise_singleton _ _
  · refine @Crypto.collisionFree_of_list _ _ ((Crypto.sample.pomfrit.keygen [1]).1 ::
      chainMessages Crypto.sample [startEntry Crypto.sample [1] 1000]) ?_ (by decide +kernel)
    rintro m ⟨coins, now, hstart, hm⟩
    cases List.mem_singleton.mp hstart
    rcases hm with hm | rfl
    · exact List.mem_cons_of_mem _ hm
    · exact List.mem_cons_self

theorem sampleStarts_head_ne :
    entriesHead Crypto.sample [startEntry Crypto.sample [1] 1000]
      ≠ entriesHead Crypto.sample [startEntry Crypto.sample [2] 2000] := by
  decide +kernel

/-- A restart signs a second head for `seq` 0, and its log is not consistent with the first. -/
theorem restart_equivocates :
    ∃ a b : RunningIssuer Crypto.sample,
      Trace (Deployment.step sampleSeed) none
        [(.start (sampleConfig []) [1] 1000 (), .working)] (some a) ∧
      Trace (Deployment.step sampleSeed) none
        [(.start (sampleConfig []) [1] 1000 (), .working),
          (.start (sampleConfig []) [2] 2000 (), .working)] (some b) ∧
      a.proc.rot.signedHead.seq = b.proc.rot.signedHead.seq ∧
      a.proc.rot.signedHead.head ≠ b.proc.rot.signedHead.head ∧
      verifyConsistency Crypto.sample a.proc.rot.signedHead (b.proc.rot.kt b.cfg).records
        ≠ .ok () := by
  have hstart : ∀ coins now, ∃ proc,
      IssuerProc.start ((sampleConfig []).withSeed sampleSigningKey) coins now () = .ok proc :=
    fun _ _ => ⟨_, rfl⟩
  obtain ⟨proc₁, h₁⟩ := hstart [1] 1000
  obtain ⟨proc₂, h₂⟩ := hstart [2] 2000
  have hpub₁ := (IssuerProc.start_publishes h₁).1
  have hpub₂ := (IssuerProc.start_publishes h₂).1
  have hseed : ktSeedFromEnv sampleSeed = .ok sampleSigningKey := by decide +kernel
  have hrun₁ : Trace (Deployment.step sampleSeed) none
      ([] ++ [(.start (sampleConfig []) [1] 1000 (), .working)]) (some ⟨_, proc₁⟩) :=
    .snoc .init (by simp only [Deployment.step, hseed, h₁])
  refine ⟨⟨_, proc₁⟩, ⟨_, proc₂⟩, hrun₁,
    .snoc hrun₁ (by simp only [Deployment.step, hseed, h₂]), ?_, ?_, ?_⟩
  · rw [hpub₁.start_head.1, hpub₂.start_head.1]
  · rw [hpub₁.start_head.2, hpub₂.start_head.2]
    intro hhead
    exact sampleStarts_head_ne (Subtype.ext (Hex.encode_injective (String.ofList_inj.mp hhead)))
  · intro hcons
    obtain ⟨es, hes, _, hparse⟩ := verifyConsistency_eq_ok.mp hcons
    rw [Rotating.kt, hpub₂.records, readAll_recordsFrom] at hes
    cases hes
    rw [parseHead, hpub₁.start_head.1, hpub₁.start_head.2, decodeHex32_encode] at hparse
    exact sampleStarts_head_ne (Outcome.ok.inj hparse)

end EatPass
