import EatPass.Spec.Published

/-!
# Rotations that overlap

`rotate` reads the version of its key under the read lock and publishes the key under the write
lock, and lets go of the lock in between. Two rotations that read before either of them wrote
publish two keys of one version, and the second takes the place of the first in `history`: the
first key can no longer be fetched, and the tokens it signed are lost to an origin that does not
have it yet.

* `resolvable_iff_nonOverlapping` — every state of a run is resolvable exactly when no rotation
  writes a version that another one has read in the meantime, and the counter does not overflow
-/

namespace EatPass

open Infra

variable {C : Crypto} {cfg : IssuerConfig C}

/-- The versions in the log rise, and every logged key can be fetched under its version. -/
structure Rotating.Resolvable (C : Crypto) (rot : Rotating) : Prop where
  increasing : (rot.log.records.map KeyRecord.keyVersion).Pairwise (· < ·)
  fetched : ∀ r ∈ rot.log.records, ∃ pk, rot.history r.keyVersion = some pk ∧
    String.ofList (Hex.encode (pk.tokenKeyId C).val) = r.tokenKeyId

/-! ## The schedule -/

/-- The rotations that have read their version since a key was last published. -/
def readSince (fresh : List Nat) : IssuerEvent × IssuerReply → List Nat
  | (.rotate task _, .working) => task :: fresh
  | (.write _, .rotate (.ok _)) => []
  | _ => fresh

def freshReads (h : List (IssuerEvent × IssuerReply)) : List Nat := h.foldl readSince []

/-- No key is published between the read and the write section of a rotation. -/
def NonOverlapping (h : List (IssuerEvent × IssuerReply)) : Prop :=
  ∀ before x after, h = before ++ x :: after →
    ∀ task response, x = (.write task, .rotate (.ok response)) → task ∈ freshReads before

/-- A step that published a key. -/
def isRotation : IssuerEvent × IssuerReply → Bool
  | (.write _, .rotate (.ok _)) => true
  | _ => false

/-- How many rotations a run has completed. -/
def rotations (h : List (IssuerEvent × IssuerReply)) : Nat := h.countP isRotation

theorem freshReads_snoc (h : List (IssuerEvent × IssuerReply)) (x : IssuerEvent × IssuerReply) :
    freshReads (h ++ [x]) = readSince (freshReads h) x := by
  rw [freshReads, List.foldl_append]
  rfl

theorem rotations_snoc (h : List (IssuerEvent × IssuerReply)) (x : IssuerEvent × IssuerReply) :
    rotations (h ++ [x]) = rotations h + if isRotation x then 1 else 0 := by
  rw [rotations, List.countP_append, List.countP_singleton]
  rfl

theorem NonOverlapping.mono {h h' : List (IssuerEvent × IssuerReply)}
    (hn : NonOverlapping h') (hpre : h <+: h') : NonOverlapping h := by
  obtain ⟨rest, rfl⟩ := hpre
  intro before x after hsplit
  exact hn before x (after ++ rest) (by rw [hsplit, List.append_assoc]; rfl)

/-! ## Versions of the published keys -/

namespace Published

/-- Every key has a higher version than the ones before it. -/
def Increasing (keys : Published) : Prop := (keys.map fun key => key.1.keyVersion).Pairwise (· < ·)

theorem increasing_append_singleton {keys : Published} {issuer : Issuer} {now : UInt64} :
    Increasing (keys ++ [(issuer, now)]) ↔
      Increasing keys ∧ ∀ key ∈ keys, key.1.keyVersion < issuer.keyVersion := by
  unfold Increasing
  rw [List.map_append, List.pairwise_append]
  simp only [List.map_cons, List.map_nil, List.pairwise_singleton, true_and, List.forall_mem_map,
    List.mem_singleton, forall_eq]

/-- In a rising list it is enough to compare with the last key. -/
theorem increasing_snoc_snoc {older : Published} {a b : Issuer} {t u : UInt64} :
    Increasing (older ++ [(a, t)] ++ [(b, u)]) ↔
      Increasing (older ++ [(a, t)]) ∧ a.keyVersion < b.keyVersion := by
  rw [increasing_append_singleton]
  refine and_congr_right fun hinc => ⟨fun h => h (a, t) (by simp), fun hab key hkey => ?_⟩
  rcases List.mem_append.mp hkey with hold | hlast
  · exact UInt32.lt_trans ((increasing_append_singleton.mp hinc).2 key hold) hab
  · rw [List.mem_singleton.mp hlast]
    exact hab

/-- Rising versions that start with 1 are at least as large as their position. -/
theorem length_le_of_increasing : ∀ {keys : Published} {issuer : Issuer} {now : UInt64},
    Increasing (keys ++ [(issuer, now)]) →
    (∀ key, (keys ++ [(issuer, now)]).head? = some key → key.1.keyVersion = 1) →
    keys.length + 1 ≤ issuer.keyVersion.toNat := by
  intro keys
  induction keys using List.reverseRecOn with
  | nil =>
    intro issuer now _ hfirst
    rw [hfirst (issuer, now) rfl]
    decide
  | append_singleton keys key ih =>
    intro issuer now hinc hfirst
    obtain ⟨hinc', hlt⟩ := increasing_snoc_snoc.mp hinc
    have hlast : keys.length + 1 ≤ key.1.keyVersion.toNat := by
      refine @ih key.1 key.2 hinc' fun k hk => hfirst k ?_
      rw [List.head?_append, hk]
      rfl
    rw [List.length_append, List.length_singleton]
    have := UInt32.lt_iff_toNat_lt.mp hlt
    omega

/-- A key that has its version for itself is found under it. -/
theorem latest_of_increasing : ∀ {keys : Published}, Increasing keys →
    ∀ {key : Issuer × UInt64}, key ∈ keys → keys.latest key.1.keyVersion = some key.1.public := by
  intro keys
  induction keys using List.reverseRecOn with
  | nil => intro _ key hkey; cases hkey
  | append_singleton keys last ih =>
    intro hinc key hkey
    obtain ⟨hinc', hlt⟩ := increasing_append_singleton.mp hinc
    rw [latest_append_singleton]
    rcases List.mem_append.mp hkey with hold | hlast
    · rw [Function.update_of_ne (UInt32.ne_of_lt (hlt key hold)), ih hinc' hold]
    · rw [List.mem_singleton.mp hlast, Function.update_self]

end Published

/-- The records carry the versions of the published keys. -/
theorem keyVersion_recordsFrom : ∀ (keys : Published) (n : Nat),
    (recordsFrom C n keys.publicKeys).map KeyRecord.keyVersion
      = keys.map fun key => key.1.keyVersion
  | [], _ => rfl
  | (issuer, now) :: rest, n => by
    have ih := keyVersion_recordsFrom rest (n + 1)
    simp only [Published.publicKeys, List.map_cons, recordsFrom] at ih ⊢
    rw [ih]
    rfl

theorem exists_of_mem_recordsFrom : ∀ {keys : Published} {n : Nat} {r : KeyRecord},
    r ∈ recordsFrom C n keys.publicKeys →
    ∃ key ∈ keys, r.keyVersion = key.1.keyVersion ∧
      r.tokenKeyId = String.ofList (Hex.encode (key.1.public.tokenKeyId C).val)
  | [], _, r, h => by cases h
  | (issuer, now) :: rest, n, r, h => by
    rcases List.mem_cons.mp h with rfl | h
    · exact ⟨(issuer, now), List.mem_cons_self, rfl, rfl⟩
    · obtain ⟨key, hkey, hr⟩ := exists_of_mem_recordsFrom h
      exact ⟨key, List.mem_cons_of_mem _ hkey, hr⟩

/-- **A state is resolvable exactly when the versions of its published keys rise.** -/
theorem Rotating.Publishes.resolvable_iff {rot : Rotating} {keys : Published}
    (h : rot.Publishes cfg keys) : rot.Resolvable C ↔ keys.Increasing := by
  have hversions : rot.log.records.map KeyRecord.keyVersion
      = keys.map fun key => key.1.keyVersion := by
    rw [h.records, keyVersion_recordsFrom]
  constructor
  · intro hres
    have hinc := hres.increasing
    rw [hversions] at hinc
    exact hinc
  · intro hinc
    refine ⟨by rw [hversions]; exact hinc, ?_⟩
    intro r hr
    rw [h.records] at hr
    obtain ⟨key, hkey, hversion, htkid⟩ := exists_of_mem_recordsFrom hr
    exact ⟨key.1.public, by rw [h.history, hversion, Published.latest_of_increasing hinc hkey],
      htkid.symm⟩

/-! ## The invariant -/

/-- The version of the key that a rotation in flight makes. -/
def RotateTask.version : RotateTask → UInt32
  | .versionRead nextVersion => nextVersion
  | .generated newIssuer _ => newIssuer.keyVersion

/--
What ties a run to the state it leads to. A rotation that has read since a key was last published
will make the next version; one that has read before will make a version that is already taken.
-/
structure RotationInv (cfg : IssuerConfig C) (h : List (IssuerEvent × IssuerReply))
    (s : IssuerProc cfg) (keys : Published) : Prop where
  publishes : s.rot.Publishes cfg keys
  first : ∀ key, keys.head? = some key → key.1.keyVersion = 1
  count : keys.length = rotations h + 1
  fresh : ∀ t task, s.tasks t = some task → t ∈ freshReads h →
    task.version = s.rot.current.keyVersion + 1
  stale : keys.Increasing → ∀ t task, s.tasks t = some task → t ∉ freshReads h →
    task.version ≤ s.rot.current.keyVersion
  consecutive : NonOverlapping h → rotations h < 2 ^ 32 - 1 →
    s.rot.current.keyVersion.toNat = rotations h + 1
  increasing_iff : keys.Increasing ↔ NonOverlapping h ∧ rotations h < 2 ^ 32 - 1

theorem nonOverlapping_snoc {h : List (IssuerEvent × IssuerReply)}
    {x : IssuerEvent × IssuerReply} :
    NonOverlapping (h ++ [x]) ↔ NonOverlapping h ∧
      ∀ task response, x = (.write task, .rotate (.ok response)) → task ∈ freshReads h :=
  forall_split_snoc

theorem nonOverlapping_snoc_of_not {h : List (IssuerEvent × IssuerReply)}
    {x : IssuerEvent × IssuerReply} (hx : isRotation x = false) :
    NonOverlapping (h ++ [x]) ↔ NonOverlapping h := by
  rw [nonOverlapping_snoc]
  refine and_iff_left ?_
  rintro task response rfl
  cases hx

/-- A step that publishes nothing keeps the invariant, if the rotations in flight keep theirs. -/
theorem RotationInv.keep {h : List (IssuerEvent × IssuerReply)} {s s' : IssuerProc cfg}
    {keys : Published} {x : IssuerEvent × IssuerReply} (hinv : RotationInv cfg h s keys)
    (hx : isRotation x = false) (hrot : s'.rot = s.rot)
    (hfresh : ∀ t task, s'.tasks t = some task → t ∈ freshReads (h ++ [x]) →
      task.version = s.rot.current.keyVersion + 1)
    (hstale : keys.Increasing → ∀ t task, s'.tasks t = some task → t ∉ freshReads (h ++ [x]) →
      task.version ≤ s.rot.current.keyVersion) : RotationInv cfg (h ++ [x]) s' keys := by
  have hcount : rotations (h ++ [x]) = rotations h := by simp [rotations_snoc, hx]
  have hover := nonOverlapping_snoc_of_not (h := h) hx
  exact
    { publishes := hrot ▸ hinv.publishes
      first := hinv.first
      count := by rw [hcount]; exact hinv.count
      fresh := by rw [hrot]; exact hfresh
      stale := by rw [hrot]; exact hstale
      consecutive := by rw [hrot, hcount, hover]; exact hinv.consecutive
      increasing_iff := by rw [hcount, hover]; exact hinv.increasing_iff }

/-- A rotation that overlaps with nothing makes the next version. -/
theorem RotationInv.written_version {h : List (IssuerEvent × IssuerReply)} {s : IssuerProc cfg}
    {keys : Published} {task : Nat} {newIssuer : Issuer} {now : UInt64}
    {response : RotateResponse} (hinv : RotationInv cfg h s keys)
    (hgen : s.tasks task = some (.generated newIssuer now))
    (hover : NonOverlapping (h ++ [(.write task, .rotate (.ok response))]))
    (hlt : rotations h + 1 < 2 ^ 32 - 1) : newIssuer.keyVersion.toNat = rotations h + 2 := by
  obtain ⟨hover, hmem⟩ := nonOverlapping_snoc.mp hover
  have hnext := hinv.fresh task _ hgen (hmem task response rfl)
  have hexact := hinv.consecutive hover (by omega)
  rw [show newIssuer.keyVersion = s.rot.current.keyVersion + 1 from hnext, UInt32.toNat_add,
    hexact]
  exact Nat.mod_eq_of_lt (by simp only [UInt32.reduceToNat]; omega)

/-- Only the answer to a completed rotation counts. -/
theorem isRotation_of_ne {e : IssuerEvent} {r : IssuerReply}
    (hr : ∀ response, r ≠ .rotate (.ok response)) : isRotation (e, r) = false := by
  cases e <;> cases r <;> try rfl
  next reply => cases reply <;> first | rfl | exact absurd rfl (hr _)

/-- **Publishing a key keeps the invariant.** -/
theorem RotationInv.write {h : List (IssuerEvent × IssuerReply)} {s s' : IssuerProc cfg}
    {keys : Published} {task : Nat} {newIssuer : Issuer} {now : UInt64}
    {response : RotateResponse} (hinv : RotationInv cfg h s keys)
    (hgen : s.tasks task = some (.generated newIssuer now))
    (hwrite : s.rot.write cfg newIssuer now = .ok (s'.rot, response))
    (htasks : s'.tasks = Function.update s.tasks task none) :
    RotationInv cfg (h ++ [(.write task, .rotate (.ok response))]) s'
      (keys ++ [(newIssuer, now)]) := by
  have hpub := Rotating.write_publishes hinv.publishes hwrite
  obtain ⟨older, time, hkeys⟩ := hinv.publishes.current
  have hcurrent : s'.rot.current = newIssuer := Rotating.write_current hwrite
  have hcount : rotations (h ++ [(.write task, .rotate (.ok response))]) = rotations h + 1 :=
    rotations_snoc h _
  have hfirst : ∀ key, (keys ++ [(newIssuer, now)]).head? = some key → key.1.keyVersion = 1 := by
    intro key hkey
    refine hinv.first key ?_
    rw [hkeys] at hkey ⊢
    rw [← hkey, List.append_assoc, List.head?_append, List.head?_append]
    cases older.head? <;> rfl
  have hinc : (keys ++ [(newIssuer, now)]).Increasing ↔
      keys.Increasing ∧ s.rot.current.keyVersion < newIssuer.keyVersion := by
    rw [hkeys]
    exact Published.increasing_snoc_snoc
  refine ⟨hpub, hfirst, ?_, ?_, ?_, ?_, ?_⟩
  · rw [List.length_append, hinv.count, hcount]
    rfl
  · intro t other ht hmem
    rw [freshReads_snoc] at hmem
    cases hmem
  · intro hnew t other ht _
    obtain ⟨hold, hlt⟩ := hinc.mp hnew
    rw [hcurrent]
    rw [htasks] at ht
    by_cases he : t = task
    · rw [he, Function.update_self] at ht
      cases ht
    · rw [Function.update_of_ne he] at ht
      by_cases hmem : t ∈ freshReads h
      · -- it would make the version after the old key's, and the new key has at least that
        rw [hinv.fresh t other ht hmem]
        rw [UInt32.lt_iff_toNat_lt] at hlt
        rw [UInt32.le_iff_toNat_le, UInt32.toNat_add]
        have := Nat.mod_le (s.rot.current.keyVersion.toNat + (1 : UInt32).toNat) (2 ^ 32)
        simp only [UInt32.reduceToNat] at this ⊢
        omega
      · exact UInt32.le_trans (hinv.stale hold t other ht hmem) (UInt32.le_of_lt hlt)
  · rw [hcurrent, hcount]
    intro hover hlt
    exact hinv.written_version hgen hover hlt
  · rw [hcount]
    constructor
    · intro hnew
      obtain ⟨hold, hlt⟩ := hinc.mp hnew
      have hbound := Published.length_le_of_increasing hnew hfirst
      have hmax : newIssuer.keyVersion.toNat < 2 ^ 32 := newIssuer.keyVersion.toNat_lt
      refine ⟨nonOverlapping_snoc.mpr ⟨(hinv.increasing_iff.mp hold).1, ?_⟩, ?_⟩
      · intro task' response' hx
        cases hx
        by_contra hmem
        have hle := hinv.stale hold task _ hgen hmem
        exact absurd (UInt32.lt_of_lt_of_le hlt hle) (UInt32.lt_irrefl _)
      · rw [hinv.count] at hbound
        omega
    · rintro ⟨hover, hlt⟩
      have hover' := (nonOverlapping_snoc.mp hover).1
      refine hinc.mpr ⟨hinv.increasing_iff.mpr ⟨hover', by omega⟩, ?_⟩
      rw [UInt32.lt_iff_toNat_lt, hinv.written_version hgen hover hlt,
        hinv.consecutive hover' (by omega)]
      omega

/-- **Every step keeps the invariant**, with the keys that are published after it. -/
theorem rotationInv_step {h : List (IssuerEvent × IssuerReply)} {s s' : IssuerProc cfg}
    {e : IssuerEvent} {r : IssuerReply} {keys : Published} (hinv : RotationInv cfg h s keys)
    (hstep : s.step e = some (s', r)) : ∃ keys', RotationInv cfg (h ++ [(e, r)]) s' keys' := by
  cases IssuerProc.step_cases hstep with
  | quiet rot tasks event reply =>
    have hsame : freshReads (h ++ [(e, r)]) = freshReads h := by
      rw [freshReads_snoc]
      cases e <;> cases r <;> try rfl
      · exact absurd rfl (event _ _ rfl)
      · next reply' => cases reply' <;> first | rfl | exact absurd rfl (reply _)
    refine ⟨keys, hinv.keep (isRotation_of_ne reply) rot ?_ ?_⟩
    · rw [hsame]
      exact fun t task ht => hinv.fresh t task (tasks t task ht)
    · rw [hsame]
      exact fun hinc t task ht => hinv.stale hinc t task (tasks t task ht)
  | read task header version event reply free next rot tasks =>
    subst event reply
    refine ⟨keys, hinv.keep rfl rot ?_ ?_⟩
    · intro t other ht hmem
      rw [tasks] at ht
      by_cases he : t = task
      · rw [he, Function.update_self] at ht
        cases ht
        exact addU32_eq_ok next
      · rw [Function.update_of_ne he] at ht
        rw [freshReads_snoc] at hmem
        exact hinv.fresh t other ht ((List.mem_cons.mp hmem).resolve_left he)
    · intro hinc t other ht hmem
      rw [freshReads_snoc] at hmem
      obtain ⟨he, hmem⟩ := not_or.mp (List.mem_cons.not.mp hmem)
      rw [tasks, Function.update_of_ne he] at ht
      exact hinv.stale hinc t other ht hmem
  | generate task coins now version event reply read rot tasks =>
    subst event reply
    have hkept : ∀ t other, s'.tasks t = some other →
        ∃ before, s.tasks t = some before ∧ before.version = other.version := by
      intro t other ht
      rw [tasks] at ht
      by_cases he : t = task
      · rw [he, Function.update_self] at ht
        cases ht
        exact ⟨.versionRead version, by rw [he, read], rfl⟩
      · rw [Function.update_of_ne he] at ht
        exact ⟨other, ht, rfl⟩
    refine ⟨keys, hinv.keep rfl rot ?_ ?_⟩
    · intro t other ht hmem
      obtain ⟨before, hbefore, hversion⟩ := hkept t other ht
      rw [freshReads_snoc] at hmem
      rw [← hversion]
      exact hinv.fresh t before hbefore hmem
    · intro hinc t other ht hmem
      obtain ⟨before, hbefore, hversion⟩ := hkept t other ht
      rw [freshReads_snoc] at hmem
      rw [← hversion]
      exact hinv.stale hinc t before hbefore hmem
  | write task newIssuer now response event reply generated rot tasks =>
    subst event reply
    exact ⟨_, hinv.write generated rot tasks⟩

theorem rotationInv_trace {s₀ s : IssuerProc cfg} {coins : List UInt8} {now : UInt64}
    {limiter : cfg.limiter.State} (hstart : IssuerProc.start cfg coins now limiter = .ok s₀)
    {h : List (IssuerEvent × IssuerReply)} (ht : Trace IssuerProc.step s₀ h s) :
    ∃ keys, RotationInv cfg h s keys := by
  induction ht with
  | init =>
    obtain ⟨hpub, htasks⟩ := IssuerProc.start_publishes hstart
    have hcurrent : s₀.rot.current = Issuer.generate C coins 1 := by
      obtain ⟨older, time, hkeys⟩ := hpub.current
      rw [← List.nil_append [(Issuer.generate C coins 1, now)]] at hkeys
      obtain ⟨_, hlast⟩ := List.append_inj' hkeys rfl
      exact (congrArg Prod.fst (List.singleton_inj.mp hlast)).symm
    refine ⟨_, hpub, ?_, rfl, ?_, ?_, ?_, ?_⟩
    · intro key hkey
      cases hkey
      rfl
    · intro t task ht
      rw [htasks] at ht
      cases ht
    · intro _ t task ht
      rw [htasks] at ht
      cases ht
    · intro _ _
      rw [hcurrent]
      rfl
    · have hnil : NonOverlapping [] := by
        intro before x after hsplit
        simp at hsplit
      exact iff_of_true (List.pairwise_singleton _ _) ⟨hnil, by decide⟩
  | snoc _ hs ih =>
    obtain ⟨keys, hkeys⟩ := ih
    exact rotationInv_step hkeys hs

/-! ## The result -/

/--
**Every state of a run is resolvable exactly when its rotations do not overlap and fewer than
`2 ^ 32 - 1` of them complete.** A rotation overlaps when another one publishes its key between
the read and the write section. One more rotation than that and the version is 0 again.
-/
theorem resolvable_iff_nonOverlapping {s₀ s : IssuerProc cfg} {coins : List UInt8} {now : UInt64}
    {limiter : cfg.limiter.State} (hstart : IssuerProc.start cfg coins now limiter = .ok s₀)
    {h : List (IssuerEvent × IssuerReply)} (ht : Trace IssuerProc.step s₀ h s) :
    (∀ h₁ s₁, h₁ <+: h → Trace IssuerProc.step s₀ h₁ s₁ → s₁.rot.Resolvable C) ↔
      NonOverlapping h ∧ rotations h < 2 ^ 32 - 1 := by
  constructor
  · intro hall
    obtain ⟨keys, hinv⟩ := rotationInv_trace hstart ht
    exact hinv.increasing_iff.mp
      (hinv.publishes.resolvable_iff.mp (hall h s (List.prefix_refl h) ht))
  · rintro ⟨hover, hlt⟩ h₁ s₁ hpre ht₁
    obtain ⟨keys, hinv⟩ := rotationInv_trace hstart ht₁
    have hfewer : rotations h₁ ≤ rotations h := hpre.sublist.countP_le
    exact hinv.publishes.resolvable_iff.mpr
      (hinv.increasing_iff.mpr ⟨hover.mono hpre, by omega⟩)

/-- One rotation, from its request to its answer. -/
theorem resolvable_after_one_rotation :
    ∃ (s : IssuerProc (sampleConfig [])) (h : List (IssuerEvent × IssuerReply)),
      exec IssuerProc.step (sampleIssuer [])
        [.rotate 0 (some "admin"), .generate 0 [2] 2000, .write 0] = some (s, h) ∧
      ((∀ h₁ s₁, h₁ <+: h → Trace IssuerProc.step (sampleIssuer []) h₁ s₁ →
        s₁.rot.Resolvable Crypto.sample) ↔ NonOverlapping h ∧ rotations h < 2 ^ 32 - 1) := by
  have hexec : exec IssuerProc.step (sampleIssuer [])
      [.rotate 0 (some "admin"), .generate 0 [2] 2000, .write 0] = some (_, _) := rfl
  exact ⟨_, _, hexec,
    resolvable_iff_nonOverlapping (sampleIssuer_start []) (Trace.of_exec hexec)⟩

/--
Two rotations that both read version 2 before either of them writes. The log then has the versions
1, 2 and 2, and `/keys/2` no longer answers with the first of the two keys.
-/
theorem overlapping_rotations_lose_a_key :
    ∃ (s : IssuerProc (sampleConfig [])) (h : List (IssuerEvent × IssuerReply)),
      exec IssuerProc.step (sampleIssuer [])
        [.rotate 0 (some "admin"), .rotate 1 (some "admin"), .generate 0 [2] 2000,
          .generate 1 [3] 2000, .write 0, .write 1] = some (s, h) ∧
      s.rot.log.records.map KeyRecord.keyVersion = [1, 2, 2] ∧
      s.rot.history 2 = some ⟨2, alg, [3]⟩ ∧
      ¬ s.rot.Resolvable Crypto.sample := by
  refine ⟨_, _, rfl, rfl, rfl, ?_⟩
  intro hres
  exact absurd hres.increasing (by decide)

end EatPass
