import EatPass.Cli.Client
import EatPass.Core.Sample
import EatPass.Spec.Published

/-!
# What an issuer serves is never refused

A client fetches `/keys` and then `/kt`, and rotations may come in between. Whatever the
interleaving, the log it gets verifies, includes the key it was served before, and is consistent
with every head served before.

The invariant `Serves` remembers what the answers given so far have in common with the keys that
are published now: a served key is one of them, and a served log was the log of the first few.
-/

namespace EatPass

open Infra

variable {C : Crypto} {cfg : IssuerConfig C}

/-! ## One state -/

/-- **The served log verifies under the issuer's log key.** -/
theorem Rotating.Publishes.verifyLog_kt {rot : Rotating} {keys : Published}
    (h : rot.Publishes cfg keys) (hf : C.faest.Complete) (p : Profile) :
    verifyLog C p (logSignerPublic C cfg.logSigner) (rot.kt cfg).records (rot.kt cfg).signedHead
      = .ok () := by
  have hsign := verifyLog_sign C hf p cfg.logSigner rot.log h.records_ne_nil
  rw [← h.signedHead] at hsign
  exact hsign

theorem Rotating.Publishes.verifyInclusion_kt {rot : Rotating} {keys : Published}
    (h : rot.Publishes cfg keys) {issuer : Issuer} {now : UInt64} (hmem : (issuer, now) ∈ keys) :
    ∃ seq, verifyInclusion (rot.kt cfg).records (issuer.public.tokenKeyId C) = .ok seq := by
  have hpublic : (issuer.public, now) ∈ keys.publicKeys :=
    List.mem_map.mpr ⟨(issuer, now), hmem, rfl⟩
  obtain ⟨seq, hseq⟩ := verifyInclusion_recordsFrom C 0 hpublic
  exact ⟨seq, by rw [Rotating.kt, h.records]; exact hseq⟩

/-- **A log is consistent with the head signed when fewer keys were published.** -/
theorem Rotating.Publishes.verifyConsistency_kt {old new : Rotating} {keys more : Published}
    (hold : old.Publishes cfg keys) (hnew : new.Publishes cfg (keys ++ more)) :
    verifyConsistency C (old.kt cfg).signedHead (new.kt cfg).records = .ok () := by
  have hpre : old.log.records <+: new.log.records := by
    rw [hold.records, hnew.records, Published.publicKeys_append]
    exact recordsFrom_mono C (List.prefix_append _ _) 0
  have hcons := verifyConsistency_sign C cfg.logSigner hold.records_ne_nil hpre
  rw [← hold.signedHead] at hcons
  exact hcons

/-! ## Answers given earlier -/

/-- The answers in the history agree with the published keys. -/
structure Serves (cfg : IssuerConfig C) (h : List (IssuerEvent × IssuerReply)) (rot : Rotating)
    (keys : Published) : Prop where
  publishes : rot.Publishes cfg keys
  keys_mem : ∀ e pk, (e, IssuerReply.keys pk) ∈ h →
    ∃ issuer now, (issuer, now) ∈ keys ∧ issuer.public = pk
  kt_first : ∀ e kt, (e, IssuerReply.kt kt) ∈ h →
    ∃ old : Rotating, ∃ first rest, old.Publishes cfg first ∧ keys = first ++ rest ∧
      kt = old.kt cfg

/-- More published keys do not take an answer back. -/
theorem Serves.grow {h : List (IssuerEvent × IssuerReply)} {rot rot' : Rotating}
    {keys more : Published} (hs : Serves cfg h rot keys)
    (hpub : rot'.Publishes cfg (keys ++ more)) : Serves cfg h rot' (keys ++ more) where
  publishes := hpub
  keys_mem := by
    intro e pk hmem
    obtain ⟨issuer, now, hkey, hpk⟩ := hs.keys_mem e pk hmem
    exact ⟨issuer, now, List.mem_append_left _ hkey, hpk⟩
  kt_first := by
    intro e kt hmem
    obtain ⟨old, first, rest, hold, hkeys, hkt⟩ := hs.kt_first e kt hmem
    exact ⟨old, first, rest ++ more, hold, by rw [hkeys, List.append_assoc], hkt⟩

/-- **A step keeps the answers true.** -/
theorem serves_step {h : List (IssuerEvent × IssuerReply)} {s s' : IssuerProc cfg}
    {e : IssuerEvent} {r : IssuerReply} {keys : Published} (hs : Serves cfg h s.rot keys)
    (hstep : s.step e = some (s', r)) :
    ∃ keys', Serves cfg (h ++ [(e, r)]) s'.rot keys' := by
  obtain ⟨more, hpub⟩ := IssuerProc.publishes_of_step hs.publishes hstep
  have hgrow := hs.grow hpub
  refine ⟨keys ++ more, hpub, ?_, ?_⟩
  · intro e' pk hmem
    rcases List.mem_append.mp hmem with hmem | hlast
    · exact hgrow.keys_mem e' pk hmem
    · -- the answer of this step: the key that is current
      cases List.mem_singleton.mp hlast
      obtain ⟨rfl, _⟩ := IssuerProc.step_keys hstep
      obtain ⟨now, hcur⟩ := hs.publishes.current_mem
      exact ⟨_, now, List.mem_append_left _ hcur, rfl⟩
  · intro e' kt hmem
    rcases List.mem_append.mp hmem with hmem | hlast
    · exact hgrow.kt_first e' kt hmem
    · cases List.mem_singleton.mp hlast
      obtain ⟨rfl, _⟩ := IssuerProc.step_kt hstep
      exact ⟨s.rot, keys, more, hs.publishes, rfl, rfl⟩

theorem serves_trace {s₀ s : IssuerProc cfg} {coins : List UInt8} {now : UInt64}
    {limiter : cfg.limiter.State} (hstart : IssuerProc.start cfg coins now limiter = .ok s₀)
    {h : List (IssuerEvent × IssuerReply)} (ht : Trace IssuerProc.step s₀ h s) :
    ∃ keys, Serves cfg h s.rot keys := by
  induction ht with
  | init =>
    exact ⟨_, (IssuerProc.start_publishes hstart).1, fun _ _ hm => absurd hm List.not_mem_nil,
      fun _ _ hm => absurd hm List.not_mem_nil⟩
  | snoc _ hs ih =>
    obtain ⟨keys, hkeys⟩ := ih
    exact serves_step hkeys hs

/-! ## The client's checks -/

/-- The checks of the client, put together. -/
theorem ktChecks_eq_ok {p : Profile} {logPub : Bytes 32} {known : Option SignedHead}
    {pk : IssuerPublicKey} {kt : KtResponse} {seq : UInt64} (hpub : kt.servedPub = logPub.val)
    (hlog : verifyLog C p logPub kt.records kt.signedHead = .ok ())
    (hincl : verifyInclusion kt.records (pk.tokenKeyId C) = .ok seq)
    (hcons : ∀ old ∈ known, verifyConsistency C old kt.records = .ok ()) :
    ktChecks C p logPub known pk kt = .ok (seq, ktHeadLine kt.signedHead) := by
  unfold ktChecks
  rw [Outcome.require_pos hpub, Outcome.ok_bind, hlog, Outcome.mapErr_ok, Outcome.ok_bind, hincl,
    Outcome.mapErr_ok, Outcome.ok_bind]
  cases known with
  | none => rfl
  | some old =>
    simp only [hcons old rfl, Outcome.mapErr_ok, Outcome.ok_bind]
    rfl

/--
**Every served log passes every check of a client**, in any run of the issuer: it verifies, it
includes every key served before it, and it is consistent with every head served before it. So a
client that was served a key and then the log is not refused.
-/
theorem served_log_accepted (hf : C.faest.Complete) {s₀ s : IssuerProc cfg} {coins : List UInt8}
    {now : UInt64} {limiter : cfg.limiter.State}
    (hstart : IssuerProc.start cfg coins now limiter = .ok s₀)
    {before after : List (IssuerEvent × IssuerReply)} {e : IssuerEvent} {kt : KtResponse}
    (ht : Trace IssuerProc.step s₀ (before ++ (e, .kt kt) :: after) s) (p : Profile) :
    verifyLog C p (logSignerPublic C cfg.logSigner) kt.records kt.signedHead = .ok () ∧
      (∀ e' pk, (e', .keys pk) ∈ before →
        ∃ seq, verifyInclusion kt.records (pk.tokenKeyId C) = .ok seq) ∧
      (∀ e' old, (e', .kt old) ∈ before →
        verifyConsistency C old.signedHead kt.records = .ok ()) ∧
      (∀ e' pk, (e', .keys pk) ∈ before → ∀ known : Option SignedHead,
        (∀ head ∈ known, ∃ e'' old, (e'', .kt old) ∈ before ∧ old.signedHead = head) →
        ∃ seq line, ktChecks C p (logSignerPublic C cfg.logSigner) known pk kt
          = .ok (seq, line)) := by
  obtain ⟨s₁, s₂, hbefore, hstep, _⟩ := Trace.split_iff.mp ht
  obtain ⟨rfl, _⟩ := IssuerProc.step_kt hstep
  obtain ⟨keys, hserves⟩ := serves_trace hstart hbefore
  have hlog := hserves.publishes.verifyLog_kt hf p
  -- a key that was current is published, and a log that was served is a prefix
  have hincl : ∀ e' pk, (e', IssuerReply.keys pk) ∈ before →
      ∃ seq, verifyInclusion (s₁.rot.kt cfg).records (pk.tokenKeyId C) = .ok seq := by
    intro e' pk hmem
    obtain ⟨issuer, now', hkey, rfl⟩ := hserves.keys_mem e' pk hmem
    exact hserves.publishes.verifyInclusion_kt hkey
  have hcons : ∀ e' old, (e', IssuerReply.kt old) ∈ before →
      verifyConsistency C old.signedHead (s₁.rot.kt cfg).records = .ok () := by
    intro e' old hmem
    obtain ⟨rot, first, rest, hold, rfl, rfl⟩ := hserves.kt_first e' old hmem
    exact hold.verifyConsistency_kt hserves.publishes
  refine ⟨hlog, hincl, hcons, ?_⟩
  intro e' pk hmem known hknown
  obtain ⟨seq, hseq⟩ := hincl e' pk hmem
  refine ⟨seq, _, ktChecks_eq_ok (by simp [KtResponse.servedPub, Rotating.kt]) hlog hseq ?_⟩
  intro head hhead
  obtain ⟨e'', old, hold, rfl⟩ := hknown head hhead
  exact hcons e'' old hold

/-- A rotation between `/keys` and `/kt`. -/
theorem served_log_accepted_after_rotation :
    ∃ (s : IssuerProc (sampleConfig [])) (h : List (IssuerEvent × IssuerReply)),
      exec IssuerProc.step (sampleIssuer [])
        [.keys, .rotate 0 (some "admin"), .generate 0 [2] 2000, .write 0, .kt] = some (s, h) ∧
      ∃ seq line, ktChecks Crypto.sample .release
        (logSignerPublic Crypto.sample sampleSigningKey) none
        (sampleIssuer []).rot.current.public (s.rot.kt (sampleConfig [])) = .ok (seq, line) := by
  refine ⟨_, _, rfl, ?_⟩
  have hexec : exec IssuerProc.step (sampleIssuer []) [.keys, .rotate 0 (some "admin"),
      .generate 0 [2] 2000, .write 0, .kt] = some (_, [_, _, _, _] ++ (_, _) :: []) := rfl
  exact (served_log_accepted Faest.sample_complete (sampleIssuer_start []) (Trace.of_exec hexec)
    .release).2.2.2 .keys _ List.mem_cons_self none (by simp)

end EatPass
