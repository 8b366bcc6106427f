import Mathlib.Data.List.Forall2
import EatPass.Core.Sample
import EatPass.Infra.Trace
import EatPass.Mobile.Client

/-!
# Batches of the mobile SDK

A client of the SDK holds the secrets of one batch between `begin` and `finalize`. A response does
not say which batch it answers, so what `finalize` makes of it depends on the last `begin` alone.

* `pending_eq` — after every run, the batch that is held is the one of the last `begin`
* `finalized_usable_iff` — when the headers that `finalize` returns are usable
* `finalize_err` — what a `finalize` that fails leaves behind
-/

namespace EatPass

open Infra

variable {C : Crypto}

/-! ## The batch that is held -/

/-- The random values of the batch that is held after a call. A response that is read takes the
batch out, whatever comes of it. -/
def outstandingAfter (held : Option (List (Bytes 32 × Bytes 32))) :
    ClientCall → Option (List (Bytes 32 × Bytes 32))
  | .begin coins => some coins
  | .finalize (.ok _) => none
  | .finalize (.error _) => held

/-- The same after all calls of a run. -/
def outstanding (h : ClientHistory) : Option (List (Bytes 32 × Bytes 32)) :=
  h.foldl (fun held x => outstandingAfter held x.1) none

@[simp] theorem outstanding_snoc (h : ClientHistory) (x : ClientCall × ClientReply) :
    outstanding (h ++ [x]) = outstandingAfter (outstanding h) x.1 := by
  unfold outstanding
  rw [List.foldl_append]
  rfl

/-- What a client holds of the batch with the random values. -/
structure EatPassClient.Holds (client s : EatPassClient C)
    (held : Option (List (Bytes 32 × Bytes 32))) : Prop where
  pk : s.pk = client.pk
  challenge : s.challenge = client.challenge
  pending : s.pending
    = held.map fun coins => (clientBeginRequest C client.pk client.challenge coins).2

/-- Every call keeps it. -/
theorem EatPassClient.Holds.step {client s s' : EatPassClient C} {call : ClientCall}
    {reply : ClientReply} {held : Option (List (Bytes 32 × Bytes 32))} (hs : client.Holds s held)
    (h : s.step C call = some (s', reply)) : client.Holds s' (outstandingAfter held call) := by
  cases call with
  | begin coins =>
    cases h
    refine ⟨hs.pk, hs.challenge, ?_⟩
    simp only [begin, outstandingAfter, Option.map_some, hs.pk, hs.challenge]
  | finalize json =>
    cases h
    cases json with
    | error text => exact hs
    | ok resp =>
      simp only [finalize, outstandingAfter]
      cases hp : s.pending with
      | none => exact ⟨hs.pk, hs.challenge, hp⟩
      | some p => exact ⟨hs.pk, hs.challenge, rfl⟩

/-- **After every run the client holds the batch of the last `begin`**, unless a response was read
since. -/
theorem pending_eq {client s : EatPassClient C} {h : ClientHistory}
    (hnew : client.pending = none) (ht : Trace (EatPassClient.step C) client h s) :
    client.Holds s (outstanding h) := by
  refine Trace.invariant (fun h s => client.Holds s (outstanding h)) ⟨rfl, rfl, hnew⟩ ?_ ht
  intro h s call s' reply _ hs hstep
  rw [outstanding_snoc]
  exact hs.step hstep

/-! ## What `finalize` returns -/

section Tokens

variable (C) (pk : IssuerPublicKey) (challenge : TokenChallenge)

/-- The request that a `begin` with the random values sends. -/
def batchRequest (coins : List (Bytes 32 × Bytes 32)) : SignRequest :=
  (clientBeginRequest C pk challenge coins).1

/-- The token that is made from one pair of random values and a blind signature. -/
def batchToken (coins : Bytes 32 × Bytes 32) (bsig : List UInt8) : SpendToken :=
  finalizeItem C ⟨pk.key, challenge.digest C, pk.tokenKeyId C, []⟩ (C.pomfrit.expandPk pk.key)
    (beginItem C (challenge.digest C) (pk.tokenKeyId C) coins).2 bsig

theorem batchRequest_blinded (coins : List (Bytes 32 × Bytes 32)) :
    (batchRequest C pk challenge coins).body.blinded
      = coins.map fun pair => (beginItem C (challenge.digest C) (pk.tokenKeyId C) pair).1 := by
  show (coins.map (beginItem C _ _)).map Prod.fst = _
  rw [List.map_map]
  rfl

/-- A batch that is held is finalised item by item, if the response has as many signatures. -/
theorem finalize_batch (coins : List (Bytes 32 × Bytes 32)) (resp : SignResponse) :
    (clientBeginRequest C pk challenge coins).2.finalize C pk resp
      = if resp.blindSigs.length = coins.length
        then .ok (List.zipWith (batchToken C pk challenge) coins resp.blindSigs)
        else .err (.pomfrit (.countMismatch coins.length resp.blindSigs.length)) := by
  unfold PendingTokens.finalize clientFinalize
  simp only [clientBeginRequest, clientBegin, List.length_map]
  rw [Outcome.require_pos trivial, Outcome.ok_bind]
  by_cases hlen : resp.blindSigs.length = coins.length
  · rw [Outcome.require_pos hlen, if_pos hlen, Outcome.ok_bind, List.map_map,
      List.zipWith_map_left]
    rfl
  · rw [if_neg hlen, Outcome.require, if_neg hlen]
    rfl

end Tokens

/-- What `finalize` answers for a batch. -/
def batchAnswer (C : Crypto) (pk : IssuerPublicKey) (challenge : TokenChallenge)
    (coins : List (Bytes 32 × Bytes 32)) (resp : SignResponse) :
    Outcome MobileError (List String) :=
  if resp.blindSigs.length = coins.length then
    .ok ((List.zipWith (batchToken C pk challenge) coins resp.blindSigs).map authorization)
  else .err (.core (Error.pomfrit (.countMismatch coins.length resp.blindSigs.length)).message)

/-- **A response that is read takes the batch out, and is answered for it.** -/
theorem EatPassClient.Holds.finalize_some {client s : EatPassClient C}
    {coins : List (Bytes 32 × Bytes 32)} (hs : client.Holds s (some coins)) (resp : SignResponse) :
    s.finalize C (.ok resp)
      = ({ s with pending := none }, batchAnswer C client.pk client.challenge coins resp) := by
  have hpending := hs.pending
  unfold EatPassClient.finalize batchAnswer
  rw [hpending]
  simp only [Option.map_some, hs.pk, finalize_batch]
  by_cases hlen : resp.blindSigs.length = coins.length
  · simp only [if_pos hlen, Outcome.mapErr_ok, Outcome.ok_bind]
  · simp only [if_neg hlen, Outcome.mapErr_err, Outcome.err_bind]

theorem EatPassClient.Holds.finalize_none {client s : EatPassClient C} (hs : client.Holds s none)
    (resp : SignResponse) : s.finalize C (.ok resp) = (s, .err .noPendingRequest) := by
  have hpending : s.pending = none := hs.pending
  unfold EatPassClient.finalize
  rw [hpending]

/-! ## Usable headers -/

/-- The header is read as a token that a verifier with the key accepts for the challenge. -/
def Usable (C : Crypto) (pk : IssuerPublicKey) (challenge : TokenChallenge) (header : String) :
    Prop :=
  ∃ token nonce, parseAuthorization header = .ok token ∧
    Verifier.verify C ⟨pk⟩ token challenge = .ok nonce

/-- A token that is read from its own header has more than `additional_r` in its authenticator. -/
theorem eq_of_parseAuthorization {token token' : SpendToken}
    (h : parseAuthorization (authorization token) = .ok token') :
    32 < token.authenticator.length ∧ token' = token := by
  have htext := parseAuthorization_text (plainText_encode token.toBytes)
    (Base64.decode_encode .urlSafeNoPad token.toBytes)
  have hread : SpendToken.fromBytes token.toBytes = .ok token' :=
    Outcome.mapErr_eq_ok.mp (htext.symm.trans h)
  have hlen : 32 < token.authenticator.length := by
    have hmin := (SpendToken.toBytes_of_fromBytes hread).2.1
    simp only [SpendToken.toBytes, List.length_append, beBytes_length, token.nonce.property,
      token.challengeDigest.property, token.tokenKeyId.property] at hmin
    omega
  rw [SpendToken.fromBytes_toBytes hlen] at hread
  exact ⟨hlen, (Outcome.ok.inj hread).symm⟩

/-- A token for the key and the challenge is usable exactly when there is a proof in it, and this
verifies. -/
theorem usable_authorization_iff {pk : IssuerPublicKey} {challenge : TokenChallenge}
    {token : SpendToken} {additionalR : Bytes 32} {proof : List UInt8}
    (htype : token.tokenType = tokenType)
    (hdigest : token.challengeDigest = challenge.digest C)
    (hkey : token.tokenKeyId = pk.tokenKeyId C)
    (hauth : token.authenticator = encodeAuthenticator additionalR proof) :
    Usable C pk challenge (authorization token) ↔
      C.pomfrit.verify (C.pomfrit.expandPk pk.key)
          (tokenInput token.nonce token.challengeDigest token.tokenKeyId) proof additionalR = true ∧
        proof ≠ [] := by
  constructor
  · rintro ⟨token', nonce, hparse, hverify⟩
    obtain ⟨hlen, rfl⟩ := eq_of_parseAuthorization hparse
    have hne : proof ≠ [] := by
      rintro rfl
      rw [hauth, encodeAuthenticator, List.append_nil, additionalR.property] at hlen
      exact absurd hlen (Nat.lt_irrefl 32)
    simp only [Verifier.verify, schemeVerify, Outcome.bind_eq_ok, Outcome.mapErr_eq_ok, hauth,
      decodeAuthenticator_encode additionalR hne, Outcome.ok.injEq, Outcome.require_eq_ok]
      at hverify
    obtain ⟨_, _, _, _, _, _, _, _, _, rfl, _, hproof, _⟩ := hverify
    exact ⟨hproof, hne⟩
  · rintro ⟨hproof, hne⟩
    have hlen : 32 < token.authenticator.length := hauth ▸ encodeAuthenticator_length _ hne
    refine ⟨token, token.nonce, parseAuthorization_authorization hlen, ?_⟩
    have hdecode : decodeAuthenticator token.authenticator = .ok (additionalR, proof) :=
      hauth ▸ decodeAuthenticator_encode _ hne
    unfold Verifier.verify
    rw [Outcome.require_pos htype, Outcome.ok_bind, Outcome.require_pos hdigest, Outcome.ok_bind,
      Outcome.require_pos hkey, Outcome.ok_bind]
    exact Outcome.mapErr_eq_ok.mpr (schemeVerify_eq_ok htype hdecode hproof)

/-- **A token of a batch is usable exactly when its blind signature is valid.** -/
theorem usable_batchToken_iff {valid : List UInt8 → List UInt8 → List UInt8 → Prop}
    (hvalid : C.pomfrit.ReportsValidity valid) (pk : IssuerPublicKey) (challenge : TokenChallenge)
    (coins : Bytes 32 × Bytes 32) (bsig : List UInt8) :
    Usable C pk challenge (authorization (batchToken C pk challenge coins bsig)) ↔
      valid pk.key (beginItem C (challenge.digest C) (pk.tokenKeyId C) coins).1 bsig :=
  Iff.trans (usable_authorization_iff rfl rfl rfl rfl) (hvalid pk.key
    (tokenInput coins.1 (challenge.digest C) (pk.tokenKeyId C)) bsig coins.2)

/-- The headers of a batch are usable exactly when every signature is valid for the blinded message
at its place. -/
theorem usable_batch_iff {valid : List UInt8 → List UInt8 → List UInt8 → Prop}
    (hvalid : C.pomfrit.ReportsValidity valid) (pk : IssuerPublicKey) (challenge : TokenChallenge)
    {coins : List (Bytes 32 × Bytes 32)} {resp : SignResponse}
    (hlen : resp.blindSigs.length = coins.length) :
    (∀ header ∈ (List.zipWith (batchToken C pk challenge) coins resp.blindSigs).map authorization,
        Usable C pk challenge header) ↔
      List.Forall₂ (valid pk.key) (batchRequest C pk challenge coins).body.blinded
        resp.blindSigs := by
  rw [batchRequest_blinded, List.forall₂_map_left_iff, List.forall₂_iff_zip]
  rw [← List.map_uncurry_zip_eq_zipWith]
  simp only [List.forall_mem_map, Function.uncurry_apply_pair, usable_batchToken_iff hvalid,
    Prod.forall, hlen, true_and]

/--
**`finalize` hands out usable headers exactly when the response answers the last `begin`.** After
any calls on a client, with any responses: the headers that `finalize` returns are all usable if and
only if each signature in the response is valid for the blinded message at its place in the request
of the batch that is held. A response with another number of signatures yields no headers.
-/
theorem finalized_usable_iff {valid : List UInt8 → List UInt8 → List UInt8 → Prop}
    (hvalid : C.pomfrit.ReportsValidity valid) {pk : IssuerPublicKey}
    {issuerName originInfo : String} {client s : EatPassClient C} {h : ClientHistory}
    (hnew : EatPassClient.new C (.ok pk) issuerName originInfo = .ok client)
    (ht : Trace (EatPassClient.step C) client h s) (json : Except String SignResponse) :
    (∀ headers, (s.finalize C json).2 = .ok headers →
        ∀ header ∈ headers, Usable C pk (.new issuerName originInfo) header) ↔
      ∀ resp coins, json = .ok resp → outstanding h = some coins →
        resp.blindSigs.length = coins.length →
        List.Forall₂ (valid pk.key)
          (batchRequest C pk (.new issuerName originInfo) coins).body.blinded resp.blindSigs := by
  cases hnew
  have hs := pending_eq rfl ht
  cases json with
  | error text => simp [EatPassClient.finalize]
  | ok resp =>
    generalize outstanding h = held at hs
    cases held with
    | none => simp [hs.finalize_none]
    | some coins =>
      rw [hs.finalize_some, batchAnswer]
      by_cases hlen : resp.blindSigs.length = coins.length
      · rw [if_pos hlen]
        simp only [Outcome.ok.injEq, forall_eq', usable_batch_iff hvalid _ _ hlen]
        constructor
        · rintro hall _ _ ⟨rfl⟩ ⟨rfl⟩ _
          exact hall
        · exact fun hall => hall resp coins rfl rfl hlen
      · rw [if_neg hlen]
        constructor
        · rintro _ _ _ ⟨rfl⟩ ⟨rfl⟩ hlen'
          exact absurd hlen' hlen
        · intro _ _ h
          cases h

/-! ### A stale answer -/

/-- In the stand-in a blind signature is the digest of the key and the blinded message. -/
theorem Pomfrit.sample_reportsValidity : Pomfrit.sample.ReportsValidity
    fun pk bm bsig => bsig = (Sha256.digest (pk ++ bm)).val := by
  intro pk msg bsig r
  constructor
  · rintro ⟨hverify, _⟩
    exact eq_of_beq hverify
  · rintro rfl
    refine ⟨beq_self_eq_true _, fun hnil => ?_⟩
    have hlen : (Sha256.digest (pk ++ msg)).val.length = 32 := (Sha256.digest _).property
    rw [show (Sha256.digest (pk ++ msg)).val = [] from hnil] at hlen
    exact absurd hlen (by decide)

def sdkIssuer : Issuer := Issuer.generate Crypto.sample [1] 1

/-- A pair of random values. -/
def coinsOf (b : UInt8) : Bytes 32 × Bytes 32 :=
  (⟨List.replicate 32 b, List.length_replicate⟩, ⟨List.replicate 32 b, List.length_replicate⟩)

/-- A client for the concrete issuer, before any call. -/
def sampleSdk : EatPassClient Crypto.sample where
  pk := sdkIssuer.public
  challenge := .new "issuer.example" "origin.example"
  pending := none

/-- What the issuer answers to a batch of one token. -/
def sampleAnswer (b : UInt8) : SignResponse :=
  issuerSign Crypto.sample sdkIssuer.sk
    (batchRequest Crypto.sample sampleSdk.pk sampleSdk.challenge [coinsOf b]).body

/-- The client after a `begin` for one token. -/
def begunWith (b : UInt8) : EatPassClient Crypto.sample :=
  (sampleSdk.begin Crypto.sample [coinsOf b]).1

/-- Two calls of `begin`, each for one token. -/
def twoBegins : ClientHistory :=
  [(.begin [coinsOf 1], .begun (sampleSdk.begin Crypto.sample [coinsOf 1]).2),
    (.begin [coinsOf 2], .begun (sampleSdk.begin Crypto.sample [coinsOf 2]).2)]

theorem twoBegins_trace :
    Trace (EatPassClient.step Crypto.sample) sampleSdk twoBegins (begunWith 2) :=
  .of_exec (show exec _ sampleSdk [.begin [coinsOf 1], .begin [coinsOf 2]]
    = some (begunWith 2, twoBegins) from rfl)

theorem finalized_usable_iff_twoBegins :
    (∀ headers, ((begunWith 2).finalize Crypto.sample (.ok (sampleAnswer 1))).2 = .ok headers →
        ∀ header ∈ headers, Usable Crypto.sample sdkIssuer.public
          (.new "issuer.example" "origin.example") header) ↔
      ∀ resp coins, Except.ok (sampleAnswer 1) = (Except.ok resp : Except String SignResponse) →
        outstanding twoBegins = some coins → resp.blindSigs.length = coins.length →
        List.Forall₂ (fun bm bsig => bsig = (Sha256.digest (sdkIssuer.public.key ++ bm)).val)
          (batchRequest Crypto.sample sdkIssuer.public (.new "issuer.example" "origin.example")
            coins).body.blinded resp.blindSigs :=
  finalized_usable_iff Pomfrit.sample_reportsValidity rfl twoBegins_trace (.ok (sampleAnswer 1))

/-- The token that the client makes of its second batch and the answer to the first one. -/
def staleToken : SpendToken :=
  batchToken Crypto.sample sampleSdk.pk sampleSdk.challenge (coinsOf 2)
    ((sampleAnswer 1).blindSigs.head (by decide +kernel))

/--
The answer to the first batch of two: `finalize` returns a header for it, which is read as a token
that no verifier with the key accepts for the client's challenge.
-/
theorem stale_answer_unusable :
    Trace (EatPassClient.step Crypto.sample) sampleSdk twoBegins (begunWith 2) ∧
      sdkIssuer.blindSign Crypto.sample (sampleSdk.begin Crypto.sample [coinsOf 1]).2.request
        = .ok (sampleAnswer 1) ∧
      ((begunWith 2).finalize Crypto.sample (.ok (sampleAnswer 1))).2
        = .ok [authorization staleToken] ∧
      parseAuthorization (authorization staleToken) = .ok staleToken ∧
      ¬ Usable Crypto.sample sdkIssuer.public (.new "issuer.example" "origin.example")
        (authorization staleToken) := by
  have hs : sampleSdk.Holds (begunWith 2) (some [coinsOf 2]) := pending_eq rfl twoBegins_trace
  refine ⟨twoBegins_trace, rfl, by rw [hs.finalize_some]; rfl, ?_, ?_⟩
  · exact parseAuthorization_authorization (by decide +kernel)
  · intro husable
    have hvalid := (usable_batchToken_iff Pomfrit.sample_reportsValidity _ _ _ _).mp husable
    exact absurd hvalid (by decide +kernel)

/-! ## A `finalize` that fails -/

/-- The batch can still be finalised: the answer of the issuer to its request gives its tokens. -/
def EatPassClient.Awaits (client s : EatPassClient C) (coins : List (Bytes 32 × Bytes 32)) : Prop :=
  ∀ issuer : Issuer, issuer.public = client.pk →
    ∃ resp, issuer.blindSign C (batchRequest C client.pk client.challenge coins) = .ok resp ∧
      (s.finalize C (.ok resp)).2
        = .ok ((coins.map (mintedToken C issuer client.challenge)).map authorization)

/-- A batch that is held can be finalised. -/
theorem EatPassClient.Holds.awaits {client s : EatPassClient C}
    {coins : List (Bytes 32 × Bytes 32)} (hs : client.Holds s (some coins)) :
    client.Awaits s coins := by
  intro issuer hpk
  have hmint := finalize_blindSign C issuer client.challenge coins
  obtain ⟨resp, hresp, hfinal⟩ := Outcome.bind_eq_ok.mp hmint
  rw [hpk] at hresp hfinal
  refine ⟨resp, hresp, ?_⟩
  have hpending := hs.pending
  unfold EatPassClient.finalize
  rw [hpending]
  simp only [Option.map_some, hs.pk, hfinal, Outcome.mapErr_ok, Outcome.ok_bind]

/-- No batch is held, and a response that is read does not change that. -/
structure EatPassClient.Consumed (s : EatPassClient C) : Prop where
  pending : s.pending = none
  finalize : ∀ resp, s.finalize C (.ok resp) = (s, .err .noPendingRequest)

/--
**A `finalize` that fails changes nothing unless it has read a response with another number of
signatures.** After any calls on a client: if the response cannot be read, or no batch is held, the
client is as before and the batch of the last `begin` can still be finalised. Otherwise the batch
was taken out to be finalised, and it is gone.
-/
theorem finalize_err {pk : IssuerPublicKey} {issuerName originInfo : String}
    {client s s' : EatPassClient C} {h : ClientHistory} {json : Except String SignResponse}
    {e : MobileError} (hnew : EatPassClient.new C (.ok pk) issuerName originInfo = .ok client)
    (ht : Trace (EatPassClient.step C) client h s) (hfin : s.finalize C json = (s', .err e)) :
    (((∃ text, json = .error text) ∨ s.pending = none) ∧ s' = s ∧
        ∀ coins, outstanding h = some coins → client.Awaits s' coins) ∨
      ∃ resp coins, json = .ok resp ∧ outstanding h = some coins ∧
        resp.blindSigs.length ≠ coins.length ∧
        e = .core (Error.pomfrit (.countMismatch coins.length resp.blindSigs.length)).message ∧
        s'.Consumed := by
  cases hnew
  have hs := pending_eq rfl ht
  rcases json with text | resp
  · cases hfin
    exact .inl ⟨.inl ⟨text, rfl⟩, rfl, fun coins hheld => (hheld ▸ hs).awaits⟩
  · rcases hheld : outstanding h with _ | coins
    · rw [hheld] at hs
      rw [hs.finalize_none] at hfin
      cases hfin
      exact .inl ⟨.inr hs.pending, rfl, fun _ hsome => nomatch hsome⟩
    · rw [hheld] at hs
      rw [hs.finalize_some, batchAnswer] at hfin
      by_cases hlen : resp.blindSigs.length = coins.length
      · rw [if_pos hlen] at hfin
        cases hfin
      · rw [if_neg hlen] at hfin
        cases hfin
        exact .inr ⟨resp, coins, rfl, rfl, hlen, rfl, rfl, fun _ => rfl⟩

/-- One `begin` for one token. -/
def oneBegin : ClientHistory :=
  [(.begin [coinsOf 1], .begun (sampleSdk.begin Crypto.sample [coinsOf 1]).2)]

theorem oneBegin_trace :
    Trace (EatPassClient.step Crypto.sample) sampleSdk oneBegin (begunWith 1) :=
  .of_exec (show exec _ sampleSdk [.begin [coinsOf 1]] = some (begunWith 1, oneBegin) from rfl)

/-- A response without a signature takes the batch with it. -/
theorem finalize_empty :
    (begunWith 1).finalize Crypto.sample (.ok ⟨[]⟩)
      = (sampleSdk, .err (.core "pomfrit: count mismatch: want 1, got 0")) := by
  have hs : sampleSdk.Holds (begunWith 1) (some [coinsOf 1]) := pending_eq rfl oneBegin_trace
  rw [hs.finalize_some]
  refine Prod.ext rfl ?_
  decide +kernel

theorem finalize_err_empty : sampleSdk.Consumed := by
  have hnew : EatPassClient.new Crypto.sample (.ok sdkIssuer.public) "issuer.example"
      "origin.example" = .ok sampleSdk := rfl
  rcases finalize_err hnew oneBegin_trace finalize_empty with
    ⟨hquiet, _⟩ | ⟨_, _, _, _, _, _, hgone⟩
  · rcases hquiet with ⟨_, hread⟩ | hnone
    · cases hread
    · cases hnone
  · exact hgone

/--
A response without a signature makes `finalize` fail and takes the batch with it: the issuer's
answer to the batch, for which a header would have been returned before, is refused after it.
-/
theorem failed_finalize_not_retried :
    Trace (EatPassClient.step Crypto.sample) sampleSdk oneBegin (begunWith 1) ∧
      (begunWith 1).pending.isSome = true ∧
      (begunWith 1).finalize Crypto.sample (.ok ⟨[]⟩)
        = (sampleSdk, .err (.core "pomfrit: count mismatch: want 1, got 0")) ∧
      sampleSdk.pending.isSome = false ∧
      (∃ header, ((begunWith 1).finalize Crypto.sample (.ok (sampleAnswer 1))).2 = .ok [header]) ∧
      (sampleSdk.finalize Crypto.sample (.ok (sampleAnswer 1))).2 = .err .noPendingRequest :=
  ⟨oneBegin_trace, rfl, finalize_empty, rfl, ⟨_, rfl⟩, rfl⟩

end EatPass
