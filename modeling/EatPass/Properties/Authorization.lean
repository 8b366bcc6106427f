import EatPass.Properties.Issuance

/-!
# Issuing in two steps

`issue_gated_with_limit` looks at the evidence and signs the batch in one call. With a separate
attester the call falls into two: the attester signs what it has found out, and the issuer reads
that instead of the evidence. The two come to the same because the bytes that are signed and the
bytes that are hashed leave nothing open.

* `bindingOf_inj` — a binding is for one batch
* `signedBytes_determine_grant` — a signature is for one grant
* `issueGatedWithLimit_eq_splitIssuance` — two steps come to the same as one call
-/

namespace EatPass

open Infra

variable {C : Crypto}

/-! ## What the bytes leave open -/

/--
**The hashed bytes determine the batch.** Lists of blinded messages that are encodable have
different preimages if they are different, whatever their sizes are and wherever their bytes are
split. Their bindings are different then as long as SHA-256 does not collide on the two.
-/
theorem bindingOf_inj {as bs : List (List UInt8)} (ha : Encodable as) (hb : Encodable bs) :
    (bindingMessage as = bindingMessage bs → as = bs) ∧
      (C.CollisionFree {bindingMessage as, bindingMessage bs} →
        bindingOf C as = bindingOf C bs → as = bs) :=
  ⟨bindingMessage_inj ha hb, fun hM h => bindingMessage_inj ha hb (hM (.inl rfl) (.inr rfl) h)⟩

/-- The same three bytes as one message and as two. -/
theorem bindingOf_inj_split :
    bindingMessage [[1, 2, 3]] ≠ bindingMessage [[1, 2], [3]] ∧
      bindingOf Crypto.sample [[1, 2, 3]] ≠ bindingOf Crypto.sample [[1, 2], [3]] := by
  have hboth := @bindingOf_inj Crypto.sample [[1, 2, 3]] [[1, 2], [3]]
    ⟨by decide, by decide⟩ ⟨by decide, by decide⟩
  have hM : Crypto.sample.CollisionFree
      {bindingMessage [[1, 2, 3]], bindingMessage [[1, 2], [3]]} :=
    @Crypto.collisionFree_of_list _ _ [bindingMessage [[1, 2, 3]], bindingMessage [[1, 2], [3]]]
      (by simp) (by decide +kernel)
  exact ⟨fun h => absurd (hboth.1 h) (by decide), fun h => absurd (hboth.2 hM h) (by decide)⟩

namespace IssuanceAuthorization

/-- The lengths of the two texts fit the integers they are written as. -/
structure Fits (auth : IssuanceAuthorization) : Prop where
  rateLimitId : auth.rateLimitId.length < 2 ^ 32
  policyLabel : (utf8 auth.policyLabel).length < 2 ^ 32

/-- Two authorizations that allow the same: they agree in everything but the signature. -/
structure SameGrant (a b : IssuanceAuthorization) : Prop where
  version : a.version = b.version
  binding : a.binding = b.binding
  rateLimitId : a.rateLimitId = b.rateLimitId
  policyLabel : a.policyLabel = b.policyLabel
  maxBatch : a.maxBatch = b.maxBatch
  exp : a.exp = b.exp
  iat : a.iat = b.iat

variable {a b : IssuanceAuthorization}

/-- The two texts in the middle cannot run into each other, as each has its length before it. -/
theorem sameGrant_of_signedBytes (ha : a.Fits) (hb : b.Fits) (h : a.signedBytes = b.signedBytes) :
    a.SameGrant b := by
  obtain ⟨hbinding, hmaxBatch, hexp, hiat⟩ := signedBytes_inj h
  obtain ⟨hversion, h⟩ := List.append_inj (List.append_cancel_left h) (by simp)
  obtain ⟨_, h⟩ := append_inj_bytes h
  obtain ⟨h, _⟩ := List.append_inj' h (by simp)
  obtain ⟨hidLength, h⟩ := List.append_inj h (by simp)
  have hidLength := ofNat_u32_inj ha.rateLimitId hb.rateLimitId (leBytes_inj_u32 hidLength)
  obtain ⟨hid, h⟩ := List.append_inj h hidLength
  obtain ⟨_, hlabel⟩ := List.append_inj h (by simp)
  exact ⟨leBytes_inj_u32 hversion, hbinding, hid, utf8_injective hlabel, hmaxBatch, hexp, hiat⟩

theorem signedBytes_eq_iff (ha : a.Fits) (hb : b.Fits) :
    a.signedBytes = b.signedBytes ↔ a.SameGrant b := by
  constructor
  · exact sameGrant_of_signedBytes ha hb
  · rintro ⟨hversion, hbinding, hid, hlabel, hmaxBatch, hexp, hiat⟩
    unfold signedBytes
    rw [hversion, hbinding, hid, hlabel, hmaxBatch, hexp, hiat]

/--
**The signed bytes determine the grant.** Two authorizations whose texts fit have the same signed
bytes exactly when they agree in every field but the signature. So the signature of one is accepted
on no authorization for a larger batch, a later expiry, another binding or another quota, if it is a
signature of one message at most.
-/
theorem signedBytes_determine_grant (ha : a.Fits) (hb : b.Fits) :
    (a.signedBytes = b.signedBytes ↔ a.SameGrant b) ∧
      ∀ (attesterPub : C.faest.VerificationKey) (now now' : UInt64),
        C.faest.OneMessage attesterPub {a.signedBytes, b.signedBytes} →
        a.verify C attesterPub now = .ok () → b.verify C attesterPub now' = .ok () →
        a.sig = b.sig → a.SameGrant b := by
  refine ⟨signedBytes_eq_iff ha hb, fun attesterPub now now' hone hva hvb hsig => ?_⟩
  obtain ⟨_, _, _, hva⟩ := verify_eq_ok.mp hva
  obtain ⟨_, _, _, hvb⟩ := verify_eq_ok.mp hvb
  rw [← hsig] at hvb
  exact sameGrant_of_signedBytes ha hb (hone _ (.inl rfl) _ (.inr rfl) a.sig hva hvb)

/-- The sample authorization with a larger batch, under the signature of the other one. -/
def enlarged : IssuanceAuthorization := { sampleAuthorization with maxBatch := 2 }

theorem signedBytes_determine_grant_enlarged :
    enlarged.signedBytes ≠ sampleAuthorization.signedBytes ∧
      enlarged.verify Crypto.sample (Crypto.sample.faest.publicBytesFromSk sampleSigningKey) 1030
        ≠ .ok () := by
  have hfits : sampleAuthorization.Fits := ⟨by decide +kernel, by decide +kernel⟩
  have hboth := signedBytes_determine_grant (C := Crypto.sample) (a := sampleAuthorization)
    (b := enlarged) hfits ⟨hfits.rateLimitId, hfits.policyLabel⟩
  have hother : ¬ sampleAuthorization.SameGrant enlarged :=
    fun h => absurd h.maxBatch (by decide +kernel)
  have hverify : sampleAuthorization.verify Crypto.sample
      (Crypto.sample.faest.publicBytesFromSk sampleSigningKey) 1030 = .ok () :=
    Authorizer.verify_signed Faest.sample_complete rfl _ _ (by decide) (by decide)
  have hdigest : Sha256.digest ((Crypto.sample.faest.publicBytesFromSk sampleSigningKey).val
        ++ sampleAuthorization.signedBytes)
      ≠ Sha256.digest ((Crypto.sample.faest.publicBytesFromSk sampleSigningKey).val
        ++ enlarged.signedBytes) := by decide +kernel
  have hone : Crypto.sample.faest.OneMessage
      (Crypto.sample.faest.publicBytesFromSk sampleSigningKey)
      {sampleAuthorization.signedBytes, enlarged.signedBytes} := by
    rintro m (rfl | rfl) m' (rfl | rfl) sig hm hm'
    · rfl
    · exact absurd (Subtype.ext ((beq_iff_eq.mp hm).symm.trans (beq_iff_eq.mp hm'))) hdigest
    · exact absurd (Subtype.ext ((beq_iff_eq.mp hm').symm.trans (beq_iff_eq.mp hm))) hdigest
    · rfl
  exact ⟨fun h => hother (hboth.1.mp h.symm),
    fun h => hother (hboth.2 _ _ _ hone hverify h rfl)⟩

end IssuanceAuthorization

/-! ## One call and two steps -/

/-- `authorize` for the batch of a request and, if it succeeds, `issue_authorized_with_limit` at
the same time. -/
def splitIssuance (R : RateLimiter) (issuer : Issuer) (a : Authorizer C)
    (attesterPub : C.faest.VerificationKey) (req : SignRequest) (eat : List UInt8)
    (limiter : R.State) (now limiterNow : UInt64) : R.State × Outcome GateError SignResponse :=
  match a.authorize eat req.body.binding (UInt32.ofNat req.body.blinded.length) now with
  | .err e => (limiter, .err e)
  | .panic => (limiter, .panic)
  | .ok auth => issueAuthorizedWithLimit C R issuer attesterPub req auth limiter now limiterNow

/-- What is signed for the batch of a request passes every check of the issuer at the same time. -/
theorem authorizedBatch_signed (hf : C.faest.Complete) {a : Authorizer C}
    {attesterPub : C.faest.VerificationKey}
    (hpub : C.faest.verifyingKeyFromBytes (C.faest.publicBytesFromSk a.signer) = some attesterPub)
    {req : SignRequest} (hne : UInt32.ofNat req.body.blinded.length ≠ 0)
    (hbinding : req.body.binding = bindingOf C req.body.blinded) (measurement : Measurement)
    (now : UInt64) :
    authorizedBatch C attesterPub req (a.signed measurement req.body.binding
        (UInt32.ofNat req.body.blinded.length) now) now
      = .ok (UInt32.ofNat req.body.blinded.length) := by
  refine authorizedBatch_eq_ok.mpr ⟨?_, hbinding, hbinding, UInt32.le_refl _, rfl⟩
  exact Authorizer.verify_signed hf hpub measurement req.body.binding hne
    (le_saturatingAddU64 now a.ttlSecs)

/--
**Two steps come to the same as one call.** For a request with at least one and less than 2^32
blinded messages and the binding of these, the gated call has the result of the two steps and leaves
the limiter as they do, whatever the verifier and the limiter answer. What FAEST signs is assumed to
verify.
-/
theorem issueGatedWithLimit_eq_splitIssuance (hf : C.faest.Complete) (R : RateLimiter)
    (issuer : Issuer) {a : Authorizer C} {attesterPub : C.faest.VerificationKey}
    (hpub : C.faest.verifyingKeyFromBytes (C.faest.publicBytesFromSk a.signer) = some attesterPub)
    {req : SignRequest} (hpos : 1 ≤ req.body.blinded.length)
    (hlt : req.body.blinded.length < 2 ^ 32)
    (hbinding : req.body.binding = bindingOf C req.body.blinded) (eat : List UInt8)
    (limiter : R.State) (now limiterNow : UInt64) :
    issueGatedWithLimit C R issuer a.verifier req eat limiter limiterNow
      = splitIssuance R issuer a attesterPub req eat limiter now limiterNow := by
  have hne : UInt32.ofNat req.body.blinded.length ≠ 0 := by
    intro hzero
    have := ofNat_u32_inj hlt (show 0 < 2 ^ 32 by decide) hzero
    omega
  unfold issueGatedWithLimit splitIssuance
  rw [if_neg (not_not.mpr hbinding.symm), a.authorize_eq eat _ hne, hbinding]
  cases hv : a.verifier.verify eat (bindingOf C req.body.blinded) with
  | err e => rfl
  | panic => rfl
  | ok measurement =>
    -- the checks of the issuer are neutral, and the identity it charges is the verifier's
    have hchecks := authorizedBatch_signed hf hpub hne hbinding measurement now
    rw [hbinding] at hchecks
    simp only [Outcome.ok_bind, issueAuthorizedWithLimit, hchecks]
    rfl

theorem issueGatedWithLimit_eq_splitIssuance_sample :
    issueGatedWithLimit Crypto.sample noLimit (Issuer.generate Crypto.sample [1] 1)
        sampleAuthorizer.verifier sampleSignBody.req [1] () 1030
      = splitIssuance noLimit (Issuer.generate Crypto.sample [1] 1) sampleAuthorizer
        (Crypto.sample.faest.publicBytesFromSk sampleSigningKey) sampleSignBody.req [1] () 1000
        1030 :=
  issueGatedWithLimit_eq_splitIssuance Faest.sample_complete noLimit _ rfl (by decide) (by decide)
    rfl [1] () 1000 1030

end EatPass
