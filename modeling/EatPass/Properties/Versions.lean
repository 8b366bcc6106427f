import EatPass.Properties.LogEdges
import EatPass.Properties.Rotation
import EatPass.Properties.Served
import EatPass.Properties.SingleSpend

/-!
# Versions over many rotations

Rotations that do not overlap publish one version after the other, modulo `2 ^ 32`. A key is served
under its version until that version is taken again, and until then it is found through the log.
A run can go on for as long as the log has room, so every version is taken again in some run.

* `publishes_since` — what is published after a point of a run
* `Rotating.Publishes.history_eq`, `history_ne` — when a key is still served
* `CanRotate.rotations` — a run with any number of rotations
-/

namespace EatPass

open Infra

variable {C : Crypto} {cfg : IssuerConfig C}

/-! ## Keys published later -/

/-- No key is published between the read and the write section of a rotation that completes in
`later`, after the run `h`. -/
def NonOverlappingAfter (h later : List (IssuerEvent × IssuerReply)) : Prop :=
  ∀ before x after, later = before ++ x :: after →
    ∀ task response, x = (.write task, .rotate (.ok response)) → task ∈ freshReads (h ++ before)

theorem nonOverlappingAfter_snoc {h later : List (IssuerEvent × IssuerReply)}
    {x : IssuerEvent × IssuerReply} :
    NonOverlappingAfter h (later ++ [x]) ↔ NonOverlappingAfter h later ∧
      ∀ task response, x = (.write task, .rotate (.ok response)) →
        task ∈ freshReads (h ++ later) :=
  forall_split_snoc

/-- The keys have the versions after `version`, one after the other and modulo `2 ^ 32`. -/
def Published.Follows (version : UInt32) (keys : Published) : Prop :=
  ∀ before key after, keys = before ++ key :: after →
    key.1.keyVersion = version + UInt32.ofNat (before.length + 1)

theorem Published.follows_snoc {version : UInt32} {keys : Published} {key : Issuer × UInt64} :
    Follows version (keys ++ [key]) ↔
      Follows version keys ∧ key.1.keyVersion = version + UInt32.ofNat (keys.length + 1) :=
  forall_split_snoc

/-- **Rotations that do not overlap publish the versions that follow.** -/
theorem publishes_since {s₀ s s' : IssuerProc cfg} {coins : List UInt8} {now : UInt64}
    {limiter : cfg.limiter.State} {h k : List (IssuerEvent × IssuerReply)} {keys : Published}
    (hstart : IssuerProc.start cfg coins now limiter = .ok s₀)
    (ht : Trace IssuerProc.step s₀ h s) (hpub : s.rot.Publishes cfg keys)
    (hk : Trace IssuerProc.step s k s') (hover : NonOverlappingAfter h k) :
    ∃ more, s'.rot.Publishes cfg (keys ++ more) ∧ more.length = rotations k ∧
      s'.rot.current.keyVersion = s.rot.current.keyVersion + UInt32.ofNat (rotations k) ∧
      more.Follows s.rot.current.keyVersion := by
  induction hk with
  | init =>
    refine ⟨[], by rw [List.append_nil]; exact hpub, rfl, ?_, ?_⟩
    · simp [rotations]
    · intro before key after hsplit
      simp at hsplit
  | @snoc k s₁ s₂ e r hk hstep ih =>
    obtain ⟨hover, hlast⟩ := nonOverlappingAfter_snoc.mp hover
    obtain ⟨more, hpub₁, hlen, hcurrent, hfollows⟩ := ih hover
    have hquiet : isRotation (e, r) = false → s₂.rot = s₁.rot →
        ∃ more, s₂.rot.Publishes cfg (keys ++ more) ∧ more.length = rotations (k ++ [(e, r)]) ∧
          s₂.rot.current.keyVersion
            = s.rot.current.keyVersion + UInt32.ofNat (rotations (k ++ [(e, r)])) ∧
          more.Follows s.rot.current.keyVersion := by
      intro hx hrot
      rw [rotations_snoc, hx, hrot]
      exact ⟨more, hpub₁, hlen, hcurrent, hfollows⟩
    cases IssuerProc.step_cases hstep with
    | quiet rot tasks event reply =>
      exact hquiet (isRotation_of_ne reply) rot
    | read task header version event reply free next rot tasks =>
      exact hquiet (by rw [event, reply]; rfl) rot
    | generate task coins now version event reply read rot tasks =>
      exact hquiet (by rw [event, reply]; rfl) rot
    | write task newIssuer now response event reply generated rot tasks =>
      subst event reply
      obtain ⟨_, hinv⟩ := rotationInv_trace hstart (Trace.append_iff.mpr ⟨s, ht, hk⟩)
      -- the version was read after the last key was published
      have hversion : newIssuer.keyVersion
          = s.rot.current.keyVersion + UInt32.ofNat (rotations k + 1) := by
        rw [show newIssuer.keyVersion = s₁.rot.current.keyVersion + 1 from
            hinv.fresh task _ generated (hlast task response rfl),
          hcurrent, UInt32.add_assoc, UInt32.ofNat_add]
        rfl
      have hcount : rotations (k ++ [(.write task, .rotate (.ok response))]) = rotations k + 1 :=
        rotations_snoc k _
      refine ⟨more ++ [(newIssuer, now)], ?_, ?_, ?_, ?_⟩
      · rw [← List.append_assoc]
        exact Rotating.write_publishes hpub₁ rot
      · rw [List.length_append, hlen, hcount]
        rfl
      · rw [hcount, Rotating.write_current rot]
        exact hversion
      · exact Published.follows_snoc.mpr ⟨hfollows, by rw [hlen]; exact hversion⟩

/-! ## Keys that can still be fetched -/

namespace Published

/-- What was published later comes first. -/
theorem latest_append (keys more : Published) (version : UInt32) :
    (keys ++ more).latest version = (more.latest version).or (keys.latest version) := by
  unfold latest
  rw [List.reverse_append, List.find?_append, Option.map_or]

theorem latest_eq_none_iff {keys : Published} {version : UInt32} :
    keys.latest version = none ↔ ∀ key ∈ keys, key.1.keyVersion ≠ version := by
  unfold latest
  simp only [Option.map_eq_none_iff, List.find?_eq_none, List.mem_reverse, decide_eq_true_eq]

/-- Fewer than `2 ^ 32` keys that follow a version do not take it again. -/
theorem Follows.latest_eq_none {version : UInt32} {keys : Published}
    (h : Follows version keys) (hlen : keys.length < 2 ^ 32) : keys.latest version = none := by
  rw [latest_eq_none_iff]
  intro key hkey heq
  obtain ⟨before, after, rfl⟩ := List.append_of_mem hkey
  have hversion := h before key after rfl
  rw [List.length_append, List.length_cons] at hlen
  -- a step of less than `2 ^ 32` leads to another version
  have hstep : (UInt32.ofNat (before.length + 1)).toNat = before.length + 1 := by
    rw [UInt32.toNat_ofNat', Nat.mod_eq_of_lt (by omega)]
  have hsum := congrArg UInt32.toNat (heq.symm.trans hversion)
  rw [UInt32.toNat_add, hstep] at hsum
  have := version.toNat_lt
  omega

/-- The `2 ^ 32`th of them does. -/
theorem Follows.exists_latest {version : UInt32} {keys : Published}
    (h : Follows version keys) (hlen : 2 ^ 32 ≤ keys.length) :
    ∃ key ∈ keys, keys.latest version = some key.1.public := by
  have hsplit : ∀ n < keys.length, ∃ before key after,
      keys = before ++ key :: after ∧ before.length = n := by
    intro n hn
    refine ⟨keys.take n, keys[n], keys.drop (n + 1), ?_, List.length_take_of_le (by omega)⟩
    rw [← List.drop_eq_getElem_cons, List.take_append_drop]
  obtain ⟨before, key, after, hkeys, hbefore⟩ := hsplit (2 ^ 32 - 1) (by omega)
  have hversion : key.1.keyVersion = version := by
    rw [h before key after hkeys, hbefore]
    exact UInt32.add_zero version
  have hne : keys.latest version ≠ none := by
    intro hnone
    exact latest_eq_none_iff.mp hnone key (by rw [hkeys]; simp) hversion
  obtain ⟨pk, hpk⟩ := Option.ne_none_iff_exists'.mp hne
  obtain ⟨found, hfound, rfl, _⟩ := exists_of_latest hpk
  exact ⟨found, hfound, hpk⟩

/-- The ids of the keys. -/
def ids (C : Crypto) (keys : Published) : List (Bytes 32) :=
  keys.map fun key => key.1.public.tokenKeyId C

end Published

/-- The ids that are logged are those of the published keys. -/
theorem tokenKeyId_recordsFrom : ∀ (keys : Published) (n : Nat),
    (recordsFrom C n keys.publicKeys).map KeyRecord.tokenKeyId
      = (keys.ids C).map fun id => String.ofList (Hex.encode id.val)
  | [], _ => rfl
  | (issuer, now) :: rest, n => by
    have ih := tokenKeyId_recordsFrom rest (n + 1)
    simp only [Published.publicKeys, Published.ids, List.map_cons, recordsFrom] at ih ⊢
    rw [ih]
    rfl

/-- The state determines the ids that were published. -/
theorem Rotating.Publishes.ids_eq {rot : Rotating} {keys keys' : Published}
    (h : rot.Publishes cfg keys) (h' : rot.Publishes cfg keys') : keys.ids C = keys'.ids C := by
  have hinj : Function.Injective fun id : Bytes 32 => String.ofList (Hex.encode id.val) := by
    intro a b hab
    exact Subtype.ext (Hex.encode_injective (String.ofList_injective hab))
  refine List.map_injective_iff.mpr hinj ?_
  rw [← tokenKeyId_recordsFrom keys 0, ← tokenKeyId_recordsFrom keys' 0, ← h.records, ← h'.records]

/-- Different keys have different ids. -/
theorem KeysFrom.ids_nodup {seeds : List (List UInt8)} {s : IssuerProc cfg} {keys : Published}
    (hk : KeysFrom seeds s keys) (hfree : C.CollisionFree { m | m ∈ seeds.map (keyOfSeed C) }) :
    (keys.ids C).Nodup := by
  have hids : keys.ids C = (keys.map fun key => key.1.pk).map C.sha256 := by
    rw [List.map_map]
    rfl
  rw [hids]
  refine List.Nodup.map_on ?_ hk.nodup
  intro a ha b hb hab
  obtain ⟨key, hkey, rfl⟩ := List.mem_map.mp ha
  obtain ⟨key', hkey', rfl⟩ := List.mem_map.mp hb
  exact hfree (hk.published key hkey).pk_mem (hk.published key' hkey').pk_mem hab

section Fetched

variable {rot : Rotating} {older more : Published} {issuer : Issuer} {time : UInt64}

/-- **The record of a key is found in the log**, with the version of the key. -/
theorem Rotating.Publishes.findRecord_kt
    (hpub : rot.Publishes cfg (older ++ (issuer, time) :: more))
    (hids : (Published.ids C (older ++ (issuer, time) :: more)).Nodup) :
    ∃ rec, findRecord (rot.kt cfg).records (issuer.public.tokenKeyId C) = some rec ∧
      rec.keyVersion = issuer.keyVersion := by
  have hmem : (issuer, time) ∈ older ++ (issuer, time) :: more := by simp
  obtain ⟨seq, hseq⟩ := hpub.verifyInclusion_kt hmem
  obtain ⟨rec, hrec⟩ := Option.isSome_iff_exists.mp
    ((included_iff_findRecord _ _).mp ⟨seq, hseq⟩)
  refine ⟨rec, hrec, ?_⟩
  -- it is the record of a published key with that id, and there is only one
  have hlogged : rec ∈ recordsFrom C 0 (older ++ (issuer, time) :: more).publicKeys := by
    rw [← hpub.records]
    exact List.mem_of_find?_eq_some hrec
  obtain ⟨key, hkey, hversion, hid⟩ := exists_of_mem_recordsFrom hlogged
  have hsame := List.find?_some hrec
  simp only [Hex.eqIgnoreAsciiCase_encode_iff, hid, String.toList_ofList, Hex.decode_encode,
    Option.some.injEq] at hsame
  have hunique := List.inj_on_of_nodup_map hids hkey hmem (Subtype.ext hsame)
  rw [hversion, hunique]

/-- **A key is served under its version until that is taken again**, `2 ^ 32` rotations later. -/
theorem Rotating.Publishes.history_eq
    (hpub : rot.Publishes cfg (older ++ (issuer, time) :: more))
    (hfollows : more.Follows issuer.keyVersion) (hlen : more.length < 2 ^ 32) :
    rot.history issuer.keyVersion = some issuer.public := by
  rw [hpub.history, ← List.singleton_append, ← List.append_assoc, Published.latest_append,
    hfollows.latest_eq_none hlen, Option.none_or, Published.latest_append_singleton,
    Function.update_self]

/-- After that another key is served under it. -/
theorem Rotating.Publishes.history_ne
    (hpub : rot.Publishes cfg (older ++ (issuer, time) :: more))
    (hids : (Published.ids C (older ++ (issuer, time) :: more)).Nodup)
    (hfollows : more.Follows issuer.keyVersion) (hlen : 2 ^ 32 ≤ more.length) :
    ∃ pk, rot.history issuer.keyVersion = some pk ∧
      pk.tokenKeyId C ≠ issuer.public.tokenKeyId C := by
  obtain ⟨key, hkey, hlatest⟩ := hfollows.exists_latest hlen
  refine ⟨key.1.public, ?_, ?_⟩
  · rw [hpub.history, ← List.singleton_append, ← List.append_assoc, Published.latest_append,
      hlatest, Option.some_or]
  · intro heq
    have hnodup : (issuer.public.tokenKeyId C :: Published.ids C more).Nodup := by
      rw [Published.ids, List.map_append, List.map_cons] at hids
      exact (List.nodup_append.mp hids).2.1
    exact (List.nodup_cons.mp hnodup).1 (List.mem_map.mpr ⟨key, hkey, heq⟩)

end Fetched

/-! ## Runs with many rotations -/

/-- The steps of a rotation that nothing else comes between. -/
def rotation (admin : String) (coins : List UInt8) (now : UInt64) (response : RotateResponse) :
    List (IssuerEvent × IssuerReply) :=
  [(.rotate 0 (some admin), .working), (.generate 0 coins now, .working),
    (.write 0, .rotate (.ok response))]

/-- A state from which a release build can rotate. -/
structure CanRotate (s : IssuerProc cfg) (admin : String) (keys : Published) : Prop where
  release : cfg.profile = .release
  admin : cfg.adminToken = some admin ∧ admin ≠ ""
  free : s.tasks 0 = none
  publishes : s.rot.Publishes cfg keys

/-- **One rotation** publishes the next version. -/
theorem CanRotate.rotate {s : IssuerProc cfg} {admin : String} {keys : Published}
    (h : CanRotate s admin keys) (hroom : keys.length + 1 ≤ isizeMax) (coins : List UInt8)
    (now : UInt64) :
    ∃ s' response, Trace IssuerProc.step s (rotation admin coins now response) s' ∧
      s'.rot.current = Issuer.generate C coins (s.rot.current.keyVersion + 1) ∧
      CanRotate s' admin (keys ++ [(s'.rot.current, now)]) := by
  let version := s.rot.current.keyVersion + 1
  let issuer := Issuer.generate C coins version
  have hnext : cfg.admitRotation (some admin) >>= (fun _ => cfg.nextVersion s.rot)
      = .ok version := by
    obtain ⟨htoken, hne⟩ := h.admin
    have hadmitted : cfg.admitRotation (some admin) = .ok () := by
      simp only [IssuerConfig.admitRotation, htoken, Outcome.ofOption_some, Outcome.ok_bind,
        Option.getD_some]
      exact Outcome.require_pos ⟨hne, trivial⟩ _
    rw [hadmitted, Outcome.ok_bind, IssuerConfig.nextVersion, h.release]
    exact addU32_release _ _
  have hroom' : s.rot.log.records.length + 1 ≤ isizeMax := by
    rw [h.publishes.records, recordsFrom_length, Published.publicKeys_length]
    exact hroom
  obtain ⟨rot, response, hwrite⟩ : ∃ rot response,
      s.rot.write cfg issuer now = .ok (rot, response) := by
    simp only [Rotating.write, KeyLog.append, dif_pos hroom']
    exact ⟨_, _, rfl⟩
  let s₁ : IssuerProc cfg :=
    { s with tasks := Function.update s.tasks 0 (some (.versionRead version)) }
  let s₂ : IssuerProc cfg :=
    { s with tasks := Function.update s.tasks 0 (some (.generated issuer now)) }
  let s₃ : IssuerProc cfg := { s with rot }
  have hread : s.step (.rotate 0 (some admin)) = some (s₁, .working) := by
    simp only [IssuerProc.step, h.free, if_true, hnext, s₁]
  have hgenerate : s₁.step (.generate 0 coins now) = some (s₂, .working) := by
    simp only [IssuerProc.step, s₁, s₂, Function.update_self, Function.update_idem, issuer]
  have hpublish : s₂.step (.write 0) = some (s₃, .rotate (.ok response)) := by
    -- the task is free again, as it was
    have htasks : Function.update s.tasks 0 none = s.tasks := by
      rw [← h.free, Function.update_eq_self]
    simp only [IssuerProc.step, s₂, s₃, Function.update_self, Function.update_idem, hwrite, htasks]
  have hcurrent : rot.current = issuer := Rotating.write_current hwrite
  refine ⟨s₃, response, .snoc (.snoc (.snoc .init hread) hgenerate) hpublish, hcurrent,
    h.release, h.admin, h.free, ?_⟩
  show rot.Publishes cfg (keys ++ [(rot.current, now)])
  rw [hcurrent]
  exact Rotating.write_publishes h.publishes hwrite

/-- Rotations one after the other, each with its own randomness. -/
inductive Rotations (admin : String) (coinsAt : Nat → List UInt8) (now : UInt64) :
    Nat → List (IssuerEvent × IssuerReply) → Prop
  | none : Rotations admin coinsAt now 0 []
  | next {n : Nat} {k : List (IssuerEvent × IssuerReply)} (response : RotateResponse) :
      Rotations admin coinsAt now n k →
      Rotations admin coinsAt now (n + 1) (k ++ rotation admin (coinsAt n) now response)

/-- **Any number of rotations**, one after the other. -/
theorem CanRotate.rotations {s : IssuerProc cfg} {admin : String} {keys : Published}
    (h : CanRotate s admin keys) (coinsAt : Nat → List UInt8) (now : UInt64) :
    ∀ n, keys.length + n ≤ isizeMax → ∃ s' k more, Rotations admin coinsAt now n k ∧
      Trace IssuerProc.step s k s' ∧ CanRotate s' admin (keys ++ more) ∧ more.length = n ∧
      s'.rot.current.keyVersion = s.rot.current.keyVersion + UInt32.ofNat n ∧
      (n ≠ 0 → s'.rot.current.pk = keyOfSeed C (coinsAt (n - 1)))
  | 0, _ => ⟨s, [], [], .none, .init, by rw [List.append_nil]; exact h, rfl, by simp, by simp⟩
  | n + 1, hroom => by
    obtain ⟨s₁, k, more, hk, ht, hcan, hlen, hversion, _⟩ :=
      h.rotations coinsAt now n (by omega)
    obtain ⟨s', response, ht', hcurrent, hcan'⟩ := hcan.rotate
      (by rw [List.length_append, hlen]; omega) (coinsAt n) now
    refine ⟨s', _, more ++ [(s'.rot.current, now)], .next response hk,
      Trace.append_iff.mpr ⟨s₁, ht, ht'⟩, by rw [← List.append_assoc]; exact hcan', ?_, ?_, ?_⟩
    · rw [List.length_append, hlen]
      rfl
    · rw [hcurrent, Issuer.generate_keyVersion, hversion, UInt32.add_assoc, UInt32.ofNat_add]
      rfl
    · intro _
      rw [hcurrent]
      rfl

namespace Rotations

variable {admin : String} {coinsAt : Nat → List UInt8} {now : UInt64} {n : Nat}
  {k : List (IssuerEvent × IssuerReply)}

theorem rotations_eq (h : Rotations admin coinsAt now n k) : EatPass.rotations k = n := by
  induction h with
  | none => rfl
  | next response _ ih =>
    rw [EatPass.rotations, List.countP_append, ← EatPass.rotations, ih]
    rfl

theorem seeds_eq (h : Rotations admin coinsAt now n k) :
    (k.filterMap fun x => x.1.seed) = (List.range n).map coinsAt := by
  induction h with
  | none => rfl
  | next response _ ih =>
    rw [List.filterMap_append, ih, List.range_succ, List.map_append]
    rfl

/-- They do not overlap. -/
theorem nonOverlapping (h : Rotations admin coinsAt now n k)
    (before : List (IssuerEvent × IssuerReply)) : NonOverlappingAfter before k := by
  induction h with
  | none =>
    intro first x rest hsplit
    simp at hsplit
  | @next n k response _ ih =>
    have hsplit : k ++ rotation admin (coinsAt n) now response
        = k ++ [(.rotate 0 (some admin), .working)] ++ [(.generate 0 (coinsAt n) now, .working)]
          ++ [(.write 0, .rotate (.ok response))] := by
      simp [rotation]
    rw [hsplit, nonOverlappingAfter_snoc, nonOverlappingAfter_snoc, nonOverlappingAfter_snoc]
    refine ⟨⟨⟨ih, by simp⟩, by simp⟩, ?_⟩
    intro task _ hx
    cases hx
    -- the read of the rotation is the last thing before it generates its key
    rw [← List.append_assoc, freshReads_snoc, ← List.append_assoc, freshReads_snoc]
    exact List.mem_cons_self

end Rotations

end EatPass
