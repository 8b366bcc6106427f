import EatPass.Mobile.Client
import EatPass.Properties.Backed

/-!
# Tokens of the mobile SDK at an origin

`EatPassClient::new` makes its challenge from the two names alone, an origin that requires a
redemption context adds 32 random bytes to them. The bytes of the two challenges differ in their
length, whatever the names are, so no origin finds the challenge of a token that the SDK minted.

* `mem_issued_length` — the challenges such an origin issues are 32 bytes longer
* `sdk_tokens_unredeemable` — the result
-/

namespace EatPass

open Infra

variable {C : Crypto} {cfg : OriginConfig}

/-! ## The two challenges -/

theorem TokenChallenge.toBytes_length (ch : TokenChallenge) :
    ch.toBytes.length = (utf8 ch.issuerName).length + ch.redemptionContext.length
      + (utf8 ch.originInfo).length + 7 := by
  simp only [TokenChallenge.toBytes, List.length_append, List.length_cons, beBytes_length]
  omega

/-- A context makes the encoding 32 bytes longer. -/
theorem freshChallenge_length {ctx : Option (Bytes 32)} {ch : TokenChallenge}
    (hreq : cfg.requireRedemptionContext = true) (h : freshChallenge cfg ctx = .ok ch) :
    ch.toBytes.length
      = (TokenChallenge.new cfg.issuerName cfg.originInfo).toBytes.length + 32 := by
  unfold freshChallenge at h
  rw [if_pos hreq, Outcome.bind_eq_ok] at h
  obtain ⟨c, _, hch⟩ := h
  cases hch
  rw [TokenChallenge.toBytes_length, TokenChallenge.toBytes_length]
  simp only [TokenChallenge.withRedemptionContext, TokenChallenge.new, c.property, List.length_nil]
  omega

/-- **Every challenge that a run has issued is 32 bytes longer than the one of the SDK.** -/
theorem mem_issued_length {h : OriginHistory} {ch : TokenChallenge}
    (hreq : cfg.requireRedemptionContext = true) (hch : ch ∈ issued cfg h) :
    ch.toBytes.length
      = (TokenChallenge.new cfg.issuerName cfg.originInfo).toBytes.length + 32 := by
  obtain ⟨⟨e, r⟩, _, hissued⟩ := List.mem_filterMap.mp hch
  unfold issuedBy at hissued
  split at hissued
  · next task header ctx text heq =>
    split at hissued
    · next ch' hfresh =>
      cases hissued
      exact freshChallenge_length hreq hfresh
    · cases hissued
  · cases hissued

/-! ## Runs of an origin -/

/-- The encodings that the SDK and a run of the origin hash. -/
def hashedChallenges (cfg : OriginConfig) (h : OriginHistory) : Set (List UInt8) :=
  { m | m = (TokenChallenge.new cfg.issuerName cfg.originInfo).toBytes ∨
    ∃ ch ∈ issued cfg h, m = ch.toBytes }

/--
Some origin with the names that requires a context, started from the issuer's key, reaches a state
in which it finds the challenge of the token. No two challenges hashed on the way collide.
-/
def Redeemable (C : Crypto) (pk : IssuerPublicKey) (issuerName originInfo : String)
    (token : SpendToken) : Prop :=
  ∃ (cfg : OriginConfig) (h : OriginHistory) (s : OriginState),
    cfg.issuerName = issuerName ∧ cfg.originInfo = originInfo ∧
    cfg.requireRedemptionContext = true ∧
    Trace (OriginState.step C cfg) (.start C pk) h s ∧
    C.CollisionFree (hashedChallenges cfg h) ∧
    (challengeForDigest C s.recentChallenges token.challengeDigest).isSome = true

/-- **No run leads to a state that finds the challenge of the SDK.** -/
theorem challengeForDigest_new_eq_none {pk : IssuerPublicKey} {h : OriginHistory}
    {s : OriginState} (hreq : cfg.requireRedemptionContext = true)
    (ht : Trace (OriginState.step C cfg) (.start C pk) h s)
    (hM : C.CollisionFree (hashedChallenges cfg h)) :
    challengeForDigest C s.recentChallenges
      ((TokenChallenge.new cfg.issuerName cfg.originInfo).digest C) = none := by
  unfold challengeForDigest
  rw [List.find?_eq_none]
  intro ch hch hdigest
  rw [recent_eq ht] at hch
  have hissued : ch ∈ issued cfg h := List.mem_of_mem_drop hch
  -- equal digests would be equal encodings, but these have different lengths
  have hbytes : ch.toBytes = (TokenChallenge.new cfg.issuerName cfg.originInfo).toBytes :=
    hM (.inr ⟨ch, hissued, rfl⟩) (.inl rfl) (of_decide_eq_true hdigest)
  have hlen := mem_issued_length hreq hissued
  rw [hbytes] at hlen
  omega

theorem not_redeemable {pk : IssuerPublicKey} {issuerName originInfo : String}
    {token : SpendToken}
    (hdigest : token.challengeDigest = (TokenChallenge.new issuerName originInfo).digest C) :
    ¬ Redeemable C pk issuerName originInfo token := by
  rintro ⟨cfg, h, s, rfl, rfl, hreq, ht, hM, hfound⟩
  rw [hdigest, challengeForDigest_new_eq_none hreq ht hM] at hfound
  cases hfound

/--
**A token minted through the SDK is never redeemable.** For every key of an honest issuer, all
names and all random values the SDK returns one header for each token that was asked for. The
header is read as a token, and no origin started with the same names and the default
configuration ever finds the token's challenge.
-/
theorem sdk_tokens_unredeemable (hp : C.pomfrit.Complete) (seed : List UInt8) (version : UInt32)
    (issuerName originInfo : String) (coins : List (Bytes 32 × Bytes 32)) :
    ∃ headers,
      sdkIssuance C (Issuer.generate C seed version) issuerName originInfo coins = .ok headers ∧
      headers.length = coins.length ∧
      ∀ header ∈ headers, ∃ token, parseAuthorization header = .ok token ∧
        ¬ Redeemable C (Issuer.generate C seed version).public issuerName originInfo token := by
  refine ⟨_, sdkIssuance_eq_ok C _ issuerName originInfo coins, by simp, ?_⟩
  intro header hheader
  obtain ⟨token, htoken, rfl⟩ := List.mem_map.mp hheader
  obtain ⟨pair, _, rfl⟩ := List.mem_map.mp htoken
  have hminted := verify_mintedToken C hp seed version (.new issuerName originInfo) pair
  exact ⟨_, parseAuthorization_authorization hminted.2,
    not_redeemable (mintedToken_challengeDigest ..)⟩

/-- One token for `issuer.example` at `origin.example`. -/
theorem sdk_tokens_unredeemable_sample :
    ∃ headers,
      sdkIssuance Crypto.sample (Issuer.generate Crypto.sample [1] 1) "issuer.example"
        "origin.example" [(sampleContext, sampleContext)] = .ok headers ∧
      headers.length = 1 ∧
      ∀ header ∈ headers, ∃ token, parseAuthorization header = .ok token ∧
        ¬ Redeemable Crypto.sample (Issuer.generate Crypto.sample [1] 1).public "issuer.example"
          "origin.example" token :=
  sdk_tokens_unredeemable Pomfrit.sample_complete [1] 1 "issuer.example" "origin.example"
    [(sampleContext, sampleContext)]

/-- A token of the SDK for the names of the concrete origin. -/
def sdkToken : SpendToken :=
  mintedToken Crypto.sample (Issuer.generate Crypto.sample [1] 1)
    (.new "issuer.example" "origin.example") (sampleContext, sampleContext)

/-- The run in which the concrete origin issues one challenge. -/
def sdkRun : OriginHistory :=
  [(.request 0 none (some sampleContext),
    .challenge (wwwAuthenticate sampleChallenge.toBytes sampleIssuerKey))]

theorem sdkRun_trace : Trace (OriginState.step Crypto.sample sampleOrigin)
    (.start Crypto.sample sampleIssuerKey) sdkRun sampleOriginState :=
  Trace.snoc_iff.mpr ⟨_, Trace.nil_iff.mpr rfl, sampleOriginState_issued⟩

/-- The two challenges of the run have different SHA-256 digests. -/
theorem sdkRun_collisionFree :
    Crypto.sample.CollisionFree (hashedChallenges sampleOrigin sdkRun) := by
  refine @Crypto.collisionFree_of_list _ _
    [(TokenChallenge.new "issuer.example" "origin.example").toBytes, sampleChallenge.toBytes] ?_ ?_
  · rintro m (rfl | ⟨ch, hch, rfl⟩)
    · exact List.mem_cons_self
    · rw [List.mem_singleton.mp (show ch ∈ [sampleChallenge] from hch)]
      exact List.mem_cons_of_mem _ List.mem_cons_self
  · decide +kernel

/--
The token of an honest issuance is not redeemable at the concrete origin: in the state that follows
the first challenge, under SHA-256, it is refused before it is verified.
-/
theorem sdk_token_refused :
    sdkIssuance Crypto.sample (Issuer.generate Crypto.sample [1] 1) "issuer.example"
      "origin.example" [(sampleContext, sampleContext)] = .ok [authorization sdkToken] ∧
    ¬ Redeemable Crypto.sample sampleIssuerKey "issuer.example" "origin.example" sdkToken ∧
    checkToken Crypto.sample sampleOrigin sampleOriginState.recentChallenges
      ⟨⟨sampleIssuerKey⟩, sampleIssuerKey.keyVersion⟩ sdkToken
      = .err "token challenge unknown or expired (mint against a fresh WWW-Authenticate)\n" := by
  have hdigest : sdkToken.challengeDigest
      = (TokenChallenge.new sampleOrigin.issuerName sampleOrigin.originInfo).digest Crypto.sample :=
    mintedToken_challengeDigest ..
  have hfind : challengeForDigest Crypto.sample sampleOriginState.recentChallenges
      sdkToken.challengeDigest = none := by
    rw [hdigest]
    exact challengeForDigest_new_eq_none rfl sdkRun_trace sdkRun_collisionFree
  refine ⟨sdkIssuance_eq_ok .., not_redeemable (mintedToken_challengeDigest ..), ?_⟩
  unfold checkToken
  rw [hfind]
  rfl

end EatPass
