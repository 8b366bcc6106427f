import EatPass.Properties.Backed
import EatPass.Properties.Versions

/-!
# Presenting a token

A request with a token is answered while nothing else happens. The challenge must still be
remembered, the nonce unspent, and the key cached or found again in the log, which it is however
many rotations came after it, until its version is taken again.

* `unspent_of_unredeemed` — only what was redeemed is spent
* `resource_granted_iff` — when a token that was not spent is granted
* `Challenged.parsed` — a client reads the challenge, and the origin remembers it
-/

namespace EatPass

open Infra

variable {C : Crypto} {cfg : IssuerConfig C}

/-! ## What the services answer -/

/-- What the issuer and the redeemer answer in a state. -/
def Services.peers (s : Services cfg) : OriginState.Peers where
  kt := some (s.issuer.rot.kt cfg)
  keysVersion version := s.issuer.rot.history version
  redeem body := Reply.status (EatPass.redeem inMemorySpentStore s.redeemer body).2

@[simp] theorem Services.peers_kt (s : Services cfg) : s.peers.kt = some (s.issuer.rot.kt cfg) :=
  rfl

@[simp] theorem Services.peers_redeem (s : Services cfg) (body : RedeemBody) :
    s.peers.redeem body = Reply.status (redeem inMemorySpentStore s.redeemer body).2 := rfl

/-- The nonce that the redeemer is asked to spend. -/
def redeemNonce : ServiceEvent × ServiceReply → Option (Bytes 32)
  | (.redeem _ _ body, _) => body.readNonce
  | (.strangeRedeem body, _) => body.readNonce
  | _ => none

/-- Nobody has asked the redeemer to spend the nonce. -/
def Unredeemed (nonce : Bytes 32) (h : ServiceHistory) : Prop := ∀ x ∈ h, redeemNonce x ≠ some nonce

theorem redeem_seen {spent : InMemorySpentStore} {body : RedeemBody} {epoch : UInt32}
    {nonce : Bytes 32} (hmem : (epoch, nonce) ∈ (redeem inMemorySpentStore spent body).1.seen)
    (hne : body.readNonce ≠ some nonce) : (epoch, nonce) ∈ spent.seen := by
  unfold redeem at hmem
  cases hn : body.readNonce with
  | none => simpa [hn] using hmem
  | some other =>
    rw [hn] at hmem hne
    simp only [InMemorySpentStore.seen_checkAndMark, Finset.mem_insert, Prod.mk.injEq] at hmem
    rcases hmem with ⟨_, rfl⟩ | hmem
    · exact absurd rfl hne
    · exact hmem

/-- **Only what was redeemed is spent.** -/
theorem unspent_of_unredeemed {s₀ : IssuerProc cfg} {s : Services cfg} {h : ServiceHistory}
    {nonce : Bytes 32} (ht : Trace Services.step (.start s₀) h s) (hun : Unredeemed nonce h)
    (epoch : UInt32) : (epoch, nonce) ∉ s.redeemer.seen := by
  induction ht with
  | init => exact Finset.notMem_empty _
  | @snoc h s s' e r _ hstep ih =>
    -- only a call of the redeemer adds to what is spent, and it adds its own nonce
    have hbefore : Unredeemed nonce h := fun x hx => hun x (List.mem_append_left _ hx)
    have hlast := hun (e, r) (by simp)
    intro hmem
    refine ih hbefore ?_
    cases Services.step_cases hstep with
    | issuer ie ir event reply step served origins redeemer answers => rwa [redeemer] at hmem
    | startOrigin j ocfg pk event reply free mem issuer served origins redeemer answers =>
      rwa [redeemer] at hmem
    | origin j ocfg o o' oe or event reply running honest step issuer served origins redeemer
        answers =>
      rwa [redeemer] at hmem
    | redeem j task body sent ocfg o token event running at_ unanswered same reply issuer served
        origins redeemer answers =>
      rw [redeemer] at hmem
      subst event
      exact redeem_seen hmem hlast
    | strangeRedeem body event reply issuer served origins redeemer answers =>
      rw [redeemer] at hmem
      subst event
      exact redeem_seen hmem hlast

theorem unredeemed_asServices (nonce : Bytes 32) (k : List (IssuerEvent × IssuerReply)) :
    Unredeemed nonce (asServices k) := by
  intro y hy
  obtain ⟨x, _, rfl⟩ := List.mem_map.mp hy
  simp [redeemNonce]

/-! ## Presenting a token -/

/-- Verification reads nothing of a key but its bytes. -/
theorem Verifier.verify_congr_key {a b : IssuerPublicKey} (h : a.key = b.key) (token : SpendToken)
    (challenge : TokenChallenge) :
    Verifier.verify C ⟨a⟩ token challenge = Verifier.verify C ⟨b⟩ token challenge := by
  have hid : a.tokenKeyId C = b.tokenKeyId C := congrArg C.sha256 h
  simp only [Verifier.verify, hid, h]

section Present

variable {s : Services cfg} {ocfg : OriginConfig} {o : OriginState} {older more : Published}
  {issuer : Issuer} {time : UInt64}

/-- The key of a record that the log has is the one served under its version. -/
theorem resolveViaKt_of_findRecord (hf : C.faest.Complete)
    (hpin : ocfg.ktLogPub = logSignerPublic C cfg.logSigner) {keys : Published}
    (hpub : s.issuer.rot.Publishes cfg keys) {tkid : Bytes 32} {rec : KeyRecord}
    (hfind : findRecord (s.issuer.rot.kt cfg).records tkid = some rec) :
    resolveViaKt C ocfg tkid s.peers.kt s.peers.keysVersion
      = OriginState.fetchKey C tkid s.peers rec.keyVersion := by
  have hpinned : (s.issuer.rot.kt cfg).servedPub = ocfg.ktLogPub.val := by
    rw [hpin]
    simp [KtResponse.servedPub, Rotating.kt]
  have hlog : verifyLog C ocfg.profile ocfg.ktLogPub (s.issuer.rot.kt cfg).records
      (s.issuer.rot.kt cfg).signedHead = .ok () := by
    rw [hpin]
    exact hpub.verifyLog_kt hf ocfg.profile
  have hlookup : Outcome.ofOption "/kt" s.peers.kt >>= lookupKt C ocfg tkid = .ok (some rec) := by
    rw [Services.peers_kt, Outcome.ofOption_some, Outcome.ok_bind, lookupKt_eq_ok hpinned hlog,
      hfind]
  rw [OriginState.resolveViaKt_eq, hlookup, Outcome.ok_bind]

/-- **The key of a published issuer is resolved through the log** as long as it is served under
its version. -/
theorem resolveViaKt_peers (hf : C.faest.Complete)
    (hpin : ocfg.ktLogPub = logSignerPublic C cfg.logSigner)
    (hpub : s.issuer.rot.Publishes cfg (older ++ (issuer, time) :: more))
    (hids : (Published.ids C (older ++ (issuer, time) :: more)).Nodup)
    (hfollows : more.Follows issuer.keyVersion) (entry : KeyEntry) :
    resolveViaKt C ocfg (issuer.public.tokenKeyId C) s.peers.kt s.peers.keysVersion
        = .ok (some entry) ↔
      entry = ⟨⟨issuer.public⟩, issuer.keyVersion⟩ ∧ more.length < 2 ^ 32 := by
  obtain ⟨rec, hfind, hversion⟩ := hpub.findRecord_kt hids
  rw [resolveViaKt_of_findRecord hf hpin hpub hfind]
  simp only [OriginState.fetchKey, Services.peers, hversion]
  by_cases hlen : more.length < 2 ^ 32
  · rw [hpub.history_eq hfollows hlen, Outcome.ofOption_some, Outcome.ok_bind,
      acceptKey_eq_ok rfl, Outcome.ok_bind]
    constructor
    · intro h
      cases h
      exact ⟨rfl, hlen⟩
    · rintro ⟨rfl, _⟩
      rfl
  · obtain ⟨pk, hpk, hne⟩ := hpub.history_ne hids hfollows (Nat.le_of_not_lt hlen)
    rw [hpk, Outcome.ofOption_some, Outcome.ok_bind, acceptKey_eq_err hne]
    exact iff_of_false (by simp) fun h => hlen h.2

/-- **When a token that was not spent is granted**: the origin has its key already, or can still
resolve it. -/
theorem resource_granted_iff (hf : C.faest.Complete) (hp : C.pomfrit.Complete)
    (hpin : ocfg.ktLogPub = logSignerPublic C cfg.logSigner)
    (hpub : s.issuer.rot.Publishes cfg (older ++ (issuer, time) :: more))
    (hids : (Published.ids C (older ++ (issuer, time) :: more)).Nodup)
    (hfollows : more.Follows issuer.keyVersion) {seeds : List (List UInt8)}
    (hfrom : issuer.From C seeds)
    (hcached : ∀ entry, o.keys (issuer.public.tokenKeyId C) = some entry →
      entry.verifier.pk.key = issuer.pk)
    {ch : TokenChallenge} (hch : ch ∈ o.recentChallenges)
    (hctx : ocfg.requireRedemptionContext = true →
      ∀ c ∈ o.recentChallenges, c.hasRedemptionContext = true)
    {pair : Bytes 32 × Bytes 32} (hunspent : ∀ epoch, (epoch, pair.1) ∉ s.redeemer.seen)
    (ctx : Option (Bytes 32)) :
    (o.resource C ocfg s.peers (some (authorization (mintedToken C issuer ch pair))) ctx).2
        = .granted (mintedToken C issuer ch pair) ↔
      (o.keys (issuer.public.tokenKeyId C)).isSome = true ∨ more.length < 2 ^ 32 := by
  obtain ⟨seed, _, version, hissuer⟩ := hfrom
  obtain ⟨hverify, hlen⟩ : Verifier.verify C ⟨issuer.public⟩ (mintedToken C issuer ch pair) ch
      = .ok pair.1 ∧ 32 < (mintedToken C issuer ch pair).authenticator.length := by
    rw [hissuer]
    exact verify_mintedToken C hp seed version ch pair
  -- whatever version the entry has, it verifies the token, and the redeemer accepts it
  have hpass : ∀ entry : KeyEntry, entry.verifier.pk.key = issuer.pk →
      checkToken C ocfg o.recentChallenges entry (mintedToken C issuer ch pair) = .ok pair.1 ∧
      s.peers.redeem (spendBody entry.epoch pair.1) = some .ok := by
    intro entry hkey
    refine ⟨checkToken_eq_ok hch rfl hctx ?_, ?_⟩
    · rw [← hverify]
      exact Verifier.verify_congr_key hkey _ _
    · rw [Services.peers_redeem, redeem_spendBody (hunspent entry.epoch)]
      rfl
  rw [OriginState.resource_eq_granted, mintedToken_tokenKeyId, OriginState.keyFor_snd]
  cases hkey : o.keys (issuer.public.tokenKeyId C) with
  | some entry =>
    obtain ⟨hcheck, hredeem⟩ := hpass entry (hcached entry hkey)
    simp only [Option.isSome_some, true_or, iff_true]
    exact ⟨parseAuthorization_authorization hlen, entry, pair.1, rfl, hcheck, hredeem⟩
  | none =>
    have hresolve := resolveViaKt_peers hf hpin hpub hids hfollows
    simp only [Option.isSome_none, Bool.false_eq_true, false_or]
    constructor
    · rintro ⟨_, entry, nonce, hfound, _⟩
      exact ((hresolve entry).mp hfound).2
    · intro hlt
      obtain ⟨hcheck, hredeem⟩ := hpass ⟨⟨issuer.public⟩, issuer.keyVersion⟩ rfl
      exact ⟨parseAuthorization_authorization hlen, _, pair.1, (hresolve _).mpr ⟨rfl, hlt⟩, hcheck,
        hredeem⟩

end Present

/-! ## The challenge -/

/-- An element with fewer than `n` others behind it is among the last `n`. -/
theorem mem_rtake {α : Type} {x : α} (before : List α) {after : List α} {n : Nat}
    (h : after.length < n) : x ∈ (before ++ x :: after).rtake n := by
  have hle : (before ++ x :: after).length - n ≤ before.length := by
    rw [List.length_append, List.length_cons]
    omega
  rw [List.rtake, List.drop_append_of_le_length hle]
  exact List.mem_append_right _ List.mem_cons_self

/-- What a challenge of an origin looks like. -/
theorem freshChallenge_ok {ocfg : OriginConfig} {ctx : Option (Bytes 32)} {ch : TokenChallenge}
    (h : freshChallenge ocfg ctx = .ok ch) :
    ch.issuerName = ocfg.issuerName ∧ ch.originInfo = ocfg.originInfo ∧
      ch.redemptionContext.length ≤ 32 ∧
      (ocfg.requireRedemptionContext = true → ch.hasRedemptionContext = true) := by
  unfold freshChallenge at h
  split at h
  · next hreq =>
    obtain ⟨context, _, hch⟩ := Outcome.bind_eq_ok.mp h
    cases hch
    refine ⟨rfl, rfl, ?_, fun _ => ?_⟩
    · exact Nat.le_of_eq context.property
    · simp [TokenChallenge.hasRedemptionContext, TokenChallenge.withRedemptionContext,
        context.property]
  · next hreq =>
    cases h
    exact ⟨rfl, rfl, Nat.zero_le _, fun hreq' => absurd hreq' hreq⟩

/-- The origin `i` has answered with the header; `later` is what happened after that. -/
def Challenged (i : Nat) (h later : ServiceHistory) (header : String) : Prop :=
  ∃ before task auth ctx, h = before ++
    (.origin i (.request task auth ctx), .origin (.challenge header)) :: later

section Challenge

variable {ocfg : OriginConfig}

/-- **An origin remembers a challenge until it has issued 64 others.** -/
theorem recent_of_issued {pk : IssuerPublicKey} {before later : OriginHistory} {task : Nat}
    {auth : Option String} {ctx : Option (Bytes 32)} {header : String} {o : OriginState}
    (ht : Trace (OriginState.step C ocfg) (.start C pk)
      (before ++ (.request task auth ctx, .challenge header) :: later) o) :
    ∃ ch advertised, freshChallenge ocfg ctx = .ok ch ∧
      header = wwwAuthenticate ch.toBytes advertised ∧
      ((issued ocfg later).length < 64 → ch ∈ o.recentChallenges) := by
  have hrecent := recent_eq ht
  obtain ⟨s₁, s₂, _, hstep, _⟩ := Trace.split_iff.mp ht
  rcases OriginState.step_recent hstep with ⟨_, hreply⟩ | ⟨task', auth', ctx', ch, hevent, hch, _,
    hheader⟩
  · exact absurd rfl (hreply header)
  · cases hevent
    cases hheader
    refine ⟨ch, s₁.advertisedPk, hch, rfl, fun hlen => ?_⟩
    have hissued : issued ocfg (before ++ (.request task auth ctx,
        .challenge (wwwAuthenticate ch.toBytes s₁.advertisedPk)) :: later)
        = issued ocfg before ++ ch :: issued ocfg later := by
      simp only [issued, List.filterMap_append, List.filterMap_cons, issuedBy, hch]
    rw [hrecent, hissued]
    exact mem_rtake _ hlen

/-- Every challenge that is remembered has a context, if one is required. -/
theorem hasRedemptionContext_of_recent {pk : IssuerPublicKey} {h : OriginHistory}
    {o : OriginState} (ht : Trace (OriginState.step C ocfg) (.start C pk) h o)
    (hreq : ocfg.requireRedemptionContext = true) :
    ∀ c ∈ o.recentChallenges, c.hasRedemptionContext = true := by
  intro c hc
  rw [recent_eq ht] at hc
  obtain ⟨⟨e, r⟩, _, hissued⟩ := List.mem_filterMap.mp (List.mem_of_mem_drop hc)
  unfold issuedBy at hissued
  split at hissued
  · next task auth ctx text heq =>
    split at hissued
    · next ch hfresh =>
      cases hissued
      exact (freshChallenge_ok hfresh).2.2.2 hreq
    · cases hissued
  · cases hissued

/-- The challenge of an origin within a run of the services. -/
theorem Challenged.recent {s₀ : IssuerProc cfg} {s : Services cfg} {h later : ServiceHistory}
    {i : Nat} {header : String} {o : OriginState} (hchallenged : Challenged i h later header)
    (ht : Trace Services.step (.start s₀) h s) (hrunning : s.origins i = some (ocfg, o)) :
    ∃ ctx ch advertised, freshChallenge ocfg ctx = .ok ch ∧
      header = wwwAuthenticate ch.toBytes advertised ∧
      ((issued ocfg (originHistory i later)).length < 64 → ch ∈ o.recentChallenges) ∧
      (ocfg.requireRedemptionContext = true →
        ∀ c ∈ o.recentChallenges, c.hasRedemptionContext = true) := by
  obtain ⟨before, task, auth, ctx, rfl⟩ := hchallenged
  have hruns := originRuns_trace ht i
  rw [hrunning] at hruns
  obtain ⟨pk, htrace⟩ := hruns
  have hparts : originHistory i (before ++
      (.origin i (.request task auth ctx), .origin (.challenge header)) :: later)
      = originHistory i before ++ (.request task auth ctx, .challenge header)
        :: originHistory i later := by
    simp [originHistory, originPart]
  have hctx := hasRedemptionContext_of_recent htrace
  rw [hparts] at htrace
  obtain ⟨ch, advertised, hfresh, hheader, hrecent⟩ := recent_of_issued htrace
  exact ⟨ctx, ch, advertised, hfresh, hheader, hrecent, hctx⟩

end Challenge

/-- The challenge that a client reads from the header of an origin. -/
theorem Challenged.parsed {s₀ : IssuerProc cfg} {s : Services cfg} {h later : ServiceHistory}
    {i : Nat} {header : String} {ocfg : OriginConfig} {o : OriginState}
    (hchallenged : Challenged i h later header) (ht : Trace Services.step (.start s₀) h s)
    (hrunning : s.origins i = some (ocfg, o)) (hiss : (utf8 ocfg.issuerName).length ≤ 65535)
    (horg : (utf8 ocfg.originInfo).length ≤ 65535) :
    ∃ ch, parseWwwAuthenticate header = .ok ch ∧
      ((issued ocfg (originHistory i later)).length < 64 → ch ∈ o.recentChallenges) ∧
      (ocfg.requireRedemptionContext = true →
        ∀ c ∈ o.recentChallenges, c.hasRedemptionContext = true) := by
  obtain ⟨ctx, ch, advertised, hfresh, rfl, hrecent, hctx⟩ := hchallenged.recent ht hrunning
  obtain ⟨hname, hinfo, hlen, _⟩ := freshChallenge_ok hfresh
  have hfits : ch.Fits := ⟨by rw [hname]; exact hiss, by omega, by rw [hinfo]; exact horg⟩
  exact ⟨ch, parseWwwAuthenticate_wwwAuthenticate hfits advertised, hrecent, hctx⟩

theorem Challenged.append {i : Nat} {h later : ServiceHistory} {header : String}
    (hchallenged : Challenged i h later header) (more : ServiceHistory) :
    Challenged i (h ++ more) (later ++ more) header := by
  obtain ⟨before, task, auth, ctx, rfl⟩ := hchallenged
  exact ⟨before, task, auth, ctx, by rw [List.append_assoc, List.cons_append]⟩

end EatPass
