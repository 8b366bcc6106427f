import Mathlib.Algebra.BigOperators.Group.Finset.Piecewise
import EatPass.Properties.Backed
import EatPass.Properties.SignTasks
import EatPass.Properties.SingleSpend

/-!
# Accesses are as scarce as issuance

What the services are for: the accesses that all origins together grant are bounded by what the
issuer has signed, and that by the quota. Nobody can be kept from presenting anything, so this rests
on the blind signatures: with each key, no more messages can be signed than the issuer has made
blind signatures with it (`OneMoreUnforgeable`).

* `ServicesSigned.step` — whatever is granted was presented and is signed with a generated key
* `grants_le_signatures` — no more accesses than blind signatures
* `grants_scarce` — no more accesses than the quotas that were drawn on
-/

namespace EatPass

open Infra

variable {C : Crypto} {cfg : IssuerConfig C}

/-! ## Tokens -/

/-- The message that the token has a signature of. -/
def SpendToken.message (token : SpendToken) : List UInt8 :=
  tokenInput token.nonce token.challengeDigest token.tokenKeyId

/-- The token has a valid signature under the key. -/
def SpendToken.SignedUnder (C : Crypto) (key : List UInt8) (token : SpendToken) : Prop :=
  token.tokenKeyId = C.sha256 key ∧
    ∃ additionalR proof, decodeAuthenticator token.authenticator = .ok (additionalR, proof) ∧
      C.pomfrit.verify (C.pomfrit.expandPk key) token.message proof additionalR = true

/-- The token that a request brings to an origin. -/
def presentedIn : OriginEvent → Option SpendToken
  | .request _ (some header) _ =>
    match parseAuthorization header with
    | .ok token => some token
    | _ => none
  | _ => none

def presentedBy : ServiceEvent × ServiceReply → Option SpendToken
  | (.origin _ e, _) => presentedIn e
  | _ => none

/-- The tokens that were presented to the origins, in order. -/
def presented (h : ServiceHistory) : List SpendToken := h.filterMap presentedBy

def grantedBy : ServiceEvent × ServiceReply → Option SpendToken
  | (_, .origin (.granted token)) => some token
  | _ => none

/-- The tokens for which some origin has answered 200, in order. -/
def grantedTokens (h : ServiceHistory) : List SpendToken := h.filterMap grantedBy

theorem grants_eq_map (h : ServiceHistory) : grants h = (grantedTokens h).map SpendToken.id := by
  rw [grants, grantedTokens, List.map_filterMap]
  refine congrArg (h.filterMap ·) (funext fun x => ?_)
  obtain ⟨e, r⟩ := x
  cases r with
  | origin r => cases r <;> rfl
  | issuer r => rfl
  | started => rfl
  | redeem r => rfl

/-- Tokens with the same message are the same token to the redeemer. -/
theorem SpendToken.id_eq_of_message {a b : SpendToken} (h : a.message = b.message) :
    a.id = b.id := by
  obtain ⟨-, h⟩ := List.append_inj h rfl
  obtain ⟨hnonce, h⟩ := List.append_inj h (a.nonce.property.trans b.nonce.property.symm)
  obtain ⟨-, hkey⟩ :=
    List.append_inj h (a.challengeDigest.property.trans b.challengeDigest.property.symm)
  exact Prod.ext (Subtype.ext hkey) (Subtype.ext hnonce)

/-! ## What is granted was signed -/

/-- The token that a request in flight carries. -/
def ResourceTask.token : ResourceTask → SpendToken
  | .fetchingKt token => token
  | .fetchingKey token _ => token
  | .keyed token _ => token
  | .redeeming token _ => token

/-- The tokens in flight were presented, and those that are sent to the redeemer are signed. -/
structure TokensSigned (C : Crypto) (keys : List (List UInt8)) (tokens : List SpendToken)
    (o : OriginState) : Prop where
  presented : ∀ task t, o.tasks task = some t → t.token ∈ tokens
  signed : ∀ task token body, o.tasks task = some (.redeeming token body) →
    ∃ key ∈ keys, token.SignedUnder C key

theorem TokensSigned.mono {keys keys' : List (List UInt8)} {tokens tokens' : List SpendToken}
    {o : OriginState} (h : TokensSigned C keys tokens o) (hkeys : keys ⊆ keys')
    (htokens : tokens ⊆ tokens') : TokensSigned C keys' tokens' o := by
  refine ⟨fun task t ht => htokens (h.presented task t ht), fun task token body ht => ?_⟩
  obtain ⟨key, hkey, hsigned⟩ := h.signed task token body ht
  exact ⟨key, hkeys hkey, hsigned⟩

/-- A step that moves one request. -/
theorem TokensSigned.keep {keys : List (List UInt8)} {tokens : List SpendToken}
    {o o' : OriginState} {task : Nat} {t : Option ResourceTask} (h : TokensSigned C keys tokens o)
    (htasks : o'.tasks = Function.update o.tasks task t)
    (hpresented : ∀ t', t = some t' → t'.token ∈ tokens)
    (hsigned : ∀ token body, t = some (.redeeming token body) →
      ∃ key ∈ keys, token.SignedUnder C key) : TokensSigned C keys tokens o' := by
  refine ⟨fun task' t' ht' => ?_, fun task' token body ht' => ?_⟩
  · rw [htasks, Function.update_apply] at ht'
    split at ht'
    · exact hpresented t' ht'
    · exact h.presented task' t' ht'
  · rw [htasks, Function.update_apply] at ht'
    split at ht'
    · exact hsigned token body ht'
    · exact h.signed task' token body ht'

/-- A token that is checked under a key is signed with it. -/
theorem signedUnder_of_checkToken {ocfg : OriginConfig} {recent : List TokenChallenge}
    {entry : KeyEntry} {token : SpendToken} {nonce : Bytes 32}
    (h : checkToken C ocfg recent entry token = .ok nonce) :
    token.SignedUnder C entry.verifier.pk.key := by
  obtain ⟨⟨ch, hvalid⟩, -⟩ := validToken_of_checkToken h
  obtain ⟨additionalR, proof, hdecode, hverify⟩ := hvalid.proof
  refine ⟨hvalid.keyId, additionalR, proof, hdecode, ?_⟩
  rw [SpendToken.message, hvalid.digest]
  exact hverify

/-- **A step of an origin** keeps its tokens signed, if the keys it has resolved are from the
list. -/
theorem TokensSigned.step {keys : List (List UInt8)} {tokens : List SpendToken}
    {ocfg : OriginConfig} {o o' : OriginState} {e : OriginEvent} {r : OriginReply}
    (h : TokensSigned C keys tokens o)
    (hkeys : ∀ task token entry, o.tasks task = some (.keyed token entry) →
      entry.verifier.pk.key ∈ keys)
    (hnew : ∀ token, presentedIn e = some token → token ∈ tokens)
    (hstep : o.step C ocfg e = some (o', r)) : TokensSigned C keys tokens o' := by
  -- a request that was just read carries the token of its header
  have hread : ∀ task header ctx token, e = .request task header ctx → r = .working →
      (o'.tasks task = some (.fetchingKt token) ∨
        ∃ entry, o'.tasks task = some (.keyed token entry)) → token ∈ tokens := by
    rintro task header ctx token rfl rfl htask
    obtain ⟨text, token', rfl, hparse, htask'⟩ := OriginState.step_request_working hstep
    have hmem : token' ∈ tokens := hnew token' (by rw [presentedIn, hparse])
    rcases htask with htask | ⟨entry, htask⟩ <;> rcases htask' with htask' | ⟨entry', htask'⟩ <;>
      rw [htask] at htask' <;> cases htask' <;> exact hmem
  cases OriginState.step_cases hstep with
  | answered task header ctx event keys' tasks reply =>
    exact ⟨tasks ▸ h.presented, tasks ▸ h.signed⟩
  | cached task header ctx token entry event free hit keys' tasks reply =>
    refine h.keep tasks ?_ (by simp)
    rintro t' ⟨⟩
    exact hread task header ctx token event reply
      (.inr ⟨entry, by rw [tasks, Function.update_self]⟩)
  | missed task header ctx token event free keys' tasks reply =>
    refine h.keep tasks ?_ (by simp)
    rintro t' ⟨⟩
    exact hread task header ctx token event reply (.inl (by rw [tasks, Function.update_self]))
  | logged task token kt rec event at_ lookup keys' tasks reply =>
    refine h.keep tasks ?_ (by simp)
    rintro t' ⟨⟩
    have hmem := h.presented task _ at_
    exact hmem
  | resolved task token version pk entry event at_ accept keys' tasks reply =>
    refine h.keep tasks ?_ (by simp)
    rintro t' ⟨⟩
    have hmem := h.presented task _ at_
    exact hmem
  | checked task token entry nonce event at_ check keys' tasks reply =>
    refine h.keep tasks ?_ ?_
    · rintro t' ⟨⟩
      have hmem := h.presented task _ at_
      exact hmem
    · rintro token' body ⟨⟩
      exact ⟨_, hkeys task token entry at_, signedUnder_of_checkToken check⟩
  | granted task token body event at_ keys' tasks reply => exact h.keep tasks (by simp) (by simp)
  | refused task answer event keys' tasks reply => exact h.keep tasks (by simp) (by simp)
  | dropped task event at_ keys' tasks reply => exact h.keep tasks (by simp) (by simp)

/-- A token that is granted was presented and is signed. -/
theorem TokensSigned.granted {keys : List (List UInt8)} {tokens : List SpendToken}
    {ocfg : OriginConfig} {o o' : OriginState} {e : OriginEvent} {token : SpendToken}
    (h : TokensSigned C keys tokens o) (hstep : o.step C ocfg e = some (o', .granted token)) :
    token ∈ tokens ∧ ∃ key ∈ keys, token.SignedUnder C key := by
  cases OriginState.step_cases hstep with
  | answered task header ctx event keys' tasks reply => exact absurd rfl (reply token)
  | cached task header ctx token' entry event free hit keys' tasks reply => cases reply
  | missed task header ctx token' event free keys' tasks reply => cases reply
  | logged task token' kt rec event at_ lookup keys' tasks reply => cases reply
  | resolved task token' version pk entry event at_ accept keys' tasks reply => cases reply
  | checked task token' entry nonce event at_ check keys' tasks reply => cases reply
  | granted task token' body event at_ keys' tasks reply =>
    cases reply
    exact ⟨h.presented task _ at_, h.signed task token body at_⟩
  | refused task answer event keys' tasks reply => exact absurd rfl (reply token)
  | dropped task event at_ keys' tasks reply => exact absurd rfl (reply token)

/-- What is in flight or granted was presented and is signed with one of the keys. -/
structure ServicesSigned (keys : List (List UInt8)) (h : ServiceHistory) (s : Services cfg) :
    Prop where
  origins : ∀ i ocfg o, s.origins i = some (ocfg, o) → TokensSigned C keys (presented h) o
  granted : ∀ token ∈ grantedTokens h,
    token ∈ presented h ∧ ∃ key ∈ keys, token.SignedUnder C key

theorem presented_append (h₁ h₂ : ServiceHistory) :
    presented (h₁ ++ h₂) = presented h₁ ++ presented h₂ :=
  List.filterMap_append

theorem grantedTokens_snoc (h : ServiceHistory) (x : ServiceEvent × ServiceReply) :
    grantedTokens (h ++ [x]) = grantedTokens h ++ (grantedBy x).toList :=
  filterMap_snoc _ _ _

/-- A step that grants nothing. -/
theorem ServicesSigned.keep {keys keys' : List (List UInt8)} {h : ServiceHistory}
    {s s' : Services cfg} {x : ServiceEvent × ServiceReply} (hinv : ServicesSigned keys h s)
    (hkeys : keys ⊆ keys') (hx : grantedBy x = none)
    (horigins : ∀ i ocfg o, s'.origins i = some (ocfg, o) →
      TokensSigned C keys' (presented (h ++ [x])) o) : ServicesSigned keys' (h ++ [x]) s' := by
  refine ⟨horigins, fun token htoken => ?_⟩
  rw [grantedTokens_snoc, hx, Option.toList_none, List.append_nil] at htoken
  obtain ⟨hmem, key, hkey, hsigned⟩ := hinv.granted token htoken
  rw [presented_append]
  exact ⟨List.mem_append_left _ hmem, key, hkeys hkey, hsigned⟩

/-- **A step of the services** keeps what is granted signed. -/
theorem ServicesSigned.step {keys keys' : List (List UInt8)} {h : ServiceHistory}
    {s s' : Services cfg} {e : ServiceEvent} {r : ServiceReply} (hinv : ServicesSigned keys h s)
    (hkeys : keys ⊆ keys')
    (hresolved : ∀ i ocfg o, s.origins i = some (ocfg, o) → ∀ task token entry,
      o.tasks task = some (.keyed token entry) → entry.verifier.pk.key ∈ keys)
    (hstep : s.step e = some (s', r)) : ServicesSigned keys' (h ++ [(e, r)]) s' := by
  have hgrow : presented h ⊆ presented (h ++ [(e, r)]) := by
    rw [presented_append]
    exact List.subset_append_left _ _
  have hquiet : s'.origins = s.origins → grantedBy (e, r) = none →
      ServicesSigned keys' (h ++ [(e, r)]) s' := by
    intro hsame hnone
    refine hinv.keep hkeys hnone fun i ocfg o ho => ?_
    exact (hinv.origins i ocfg o (hsame ▸ ho)).mono hkeys hgrow
  cases Services.step_cases hstep with
  | issuer ie ir event reply step served origins redeemer answers =>
    exact hquiet origins (by rw [reply]; rfl)
  | startOrigin i ocfg pk event reply free mem issuer served origins redeemer answers =>
    refine hinv.keep hkeys (by rw [reply]; rfl) fun i' ocfg' o' ho => ?_
    rw [origins, Function.update_apply] at ho
    split at ho
    · cases ho
      refine ⟨fun task t ht => ?_, fun task token body ht => ?_⟩
      · cases ht
      · cases ht
    · exact (hinv.origins i' ocfg' o' ho).mono hkeys hgrow
  | origin i ocfg o o' oe or event reply running honest step issuer served origins redeemer
      answers =>
    subst event reply
    have hbefore := (hinv.origins i ocfg o running).mono (List.Subset.refl _) hgrow
    have hnew : ∀ token, presentedIn oe = some token →
        token ∈ presented (h ++ [(.origin i oe, .origin or)]) := by
      intro token htoken
      rw [presented_append]
      exact List.mem_append_right _ (List.mem_filterMap.mpr
        ⟨_, List.mem_singleton_self _, htoken⟩)
    have hafter := (hbefore.step (hresolved i ocfg o running) hnew step).mono hkeys
      (List.Subset.refl _)
    refine ⟨fun i' ocfg' o'' ho => ?_, fun token htoken => ?_⟩
    · rw [origins, Function.update_apply] at ho
      split at ho
      · cases ho
        exact hafter
      · exact (hinv.origins i' ocfg' o'' ho).mono hkeys hgrow
    · rw [grantedTokens_snoc] at htoken
      rcases List.mem_append.mp htoken with hold | hlast
      · obtain ⟨hmem, key, hkey, hsigned⟩ := hinv.granted token hold
        exact ⟨hgrow hmem, key, hkeys hkey, hsigned⟩
      · cases or with
        | granted token' =>
          rw [List.mem_singleton.mp hlast]
          obtain ⟨hmem, key, hkey, hsigned⟩ := hbefore.granted step
          exact ⟨hmem, key, hkeys hkey, hsigned⟩
        | working => cases hlast
        | challenge www => cases hlast
        | refused status text => cases hlast
        | panic => cases hlast
  | redeem i task body sent ocfg o token event running at_ unanswered same reply issuer served
      origins redeemer answers =>
    exact hquiet origins (by rw [reply]; rfl)
  | strangeRedeem body event reply issuer served origins redeemer answers =>
    exact hquiet origins (by rw [reply]; rfl)

/-- The keys that were generated before a step were generated after it. -/
theorem generatedKeys_prefix (C : Crypto) (coins : List UInt8) (h : ServiceHistory)
    (x : ServiceEvent × ServiceReply) :
    generatedKeys C coins h <+: generatedKeys C coins (h ++ [x]) := by
  rw [generatedKeys, generatedKeys, seedsOf_issuerHistory_snoc, List.map_append]
  exact List.prefix_append _ _

/-- **Whatever is granted was presented and is signed with a generated key.** -/
theorem servicesSigned_trace {s₀ : IssuerProc cfg} {coins : List UInt8} {now : UInt64}
    {limiter : cfg.limiter.State} (hstart : IssuerProc.start cfg coins now limiter = .ok s₀)
    {h : ServiceHistory} {s : Services cfg} (ht : Trace Services.step (.start s₀) h s) :
    (generatedKeys C coins h).Nodup → C.CollisionFree { m | m ∈ generatedKeys C coins h } →
      ServicesSigned (generatedKeys C coins h) h s := by
  induction ht with
  | init =>
    intro _ _
    refine ⟨fun i ocfg o ho => ?_, fun token htoken => absurd htoken List.not_mem_nil⟩
    cases ho
  | @snoc h s s' e r ht hstep ih =>
    intro hnodup hfree
    have hprefix := generatedKeys_prefix C coins h (e, r)
    have hbefore := hprefix.sublist.nodup hnodup
    have hfree' : C.CollisionFree { m | m ∈ generatedKeys C coins h } :=
      hfree.mono fun m hm => hprefix.subset hm
    obtain ⟨keys, hkeys, hagree, -⟩ := ledger_trace hstart ht hbefore hfree'
    refine (ih hbefore hfree').step hprefix.subset ?_ hstep
    intro i ocfg o ho task token entry htask
    obtain ⟨key, hkey, rfl⟩ := (hagree.origins i ocfg o ho).keyed task token entry htask
    exact (hkeys.published key hkey).pk_mem

/-! ## Blind signatures -/

/-- The blind signatures in an answer. -/
def signatureCount : IssuerReply → Nat
  | .sign (.ok resp) => resp.blindSigs.length
  | _ => 0

/-- The blind signatures that the issuer has returned. -/
def signatures (h : List (IssuerEvent × IssuerReply)) : Nat :=
  (h.map fun x => signatureCount x.2).sum

/-- Those that were made with a key: it was the current one. -/
def signaturesUnder (key : List UInt8) :
    IssuerProc cfg → List (IssuerEvent × IssuerReply) → Nat
  | _, [] => 0
  | s, (e, r) :: rest =>
    (if s.rot.current.pk = key then signatureCount r else 0) +
      match s.step e with
      | some (s', _) => signaturesUnder key s' rest
      | none => 0

/-- Every blind signature is made with one key. -/
theorem sum_signaturesUnder_le (keys : Finset (List UInt8)) :
    ∀ (s : IssuerProc cfg) (h : List (IssuerEvent × IssuerReply)),
      ∑ key ∈ keys, signaturesUnder key s h ≤ signatures h
  | _, [] => by simp [signaturesUnder]
  | s, (e, r) :: rest => by
    have hone : ∑ key ∈ keys, (if s.rot.current.pk = key then signatureCount r else 0)
        ≤ signatureCount r := by
      rw [Finset.sum_ite_eq]
      split
      · exact le_rfl
      · exact Nat.zero_le _
    have hrest : ∑ key ∈ keys, (match s.step e with
        | some (s', _) => signaturesUnder key s' rest
        | none => 0) ≤ signatures rest := by
      cases s.step e with
      | none => simp
      | some p => exact sum_signaturesUnder_le keys p.1 rest
    simp only [signaturesUnder, Finset.sum_add_distrib]
    exact Nat.add_le_add hone hrest

/--
One-more unforgeability in a run: of the messages of presented tokens, no more have a valid
signature under a generated key than the issuer has made blind signatures with it.
-/
def OneMoreUnforgeable (coins : List UInt8) (s₀ : IssuerProc cfg) (h : ServiceHistory) : Prop :=
  ∀ key ∈ generatedKeys C coins h, ∀ tokens : List SpendToken,
    (∀ token ∈ tokens, token ∈ presented h ∧ token.SignedUnder C key) →
    (tokens.map SpendToken.message).Nodup →
    tokens.length ≤ signaturesUnder key s₀ (issuerHistory h)

/-- What falls under one of some rules each is no more than what falls under the rules together. -/
theorem length_le_sum_countP {α κ : Type} (keys : Finset κ) (p : κ → α → Bool) :
    ∀ {l : List α}, (∀ x ∈ l, ∃ k ∈ keys, p k x = true) →
      l.length ≤ ∑ k ∈ keys, l.countP (p k)
  | [], _ => Nat.zero_le _
  | x :: l, hall => by
    have ih := length_le_sum_countP keys p fun y hy => hall y (List.mem_cons_of_mem _ hy)
    obtain ⟨k, hk, hx⟩ := hall x List.mem_cons_self
    have hone : 1 ≤ ∑ k ∈ keys, (if p k x = true then 1 else 0) := by
      refine le_trans (le_of_eq (if_pos hx).symm) (Finset.single_le_sum (f := fun k =>
        if p k x = true then 1 else 0) (fun _ _ => Nat.zero_le _) hk)
    simp only [List.countP_cons, Finset.sum_add_distrib, List.length_cons]
    exact Nat.add_le_add ih hone

/-- **No more accesses than blind signatures.** -/
theorem grants_le_signatures {s₀ : IssuerProc cfg} {coins : List UInt8} {now : UInt64}
    {limiter : cfg.limiter.State} (hstart : IssuerProc.start cfg coins now limiter = .ok s₀)
    {h : ServiceHistory} {s : Services cfg} (ht : Trace Services.step (.start s₀) h s)
    (hdistinct : (generatedKeys C coins h).Nodup)
    (hfree : C.CollisionFree { m | m ∈ generatedKeys C coins h })
    (hforge : OneMoreUnforgeable coins s₀ h) :
    (grants h).length ≤ signatures (issuerHistory h) := by
  obtain ⟨_, _, _, hledger⟩ := ledger_trace hstart ht hdistinct hfree
  have hgranted := (servicesSigned_trace hstart ht hdistinct hfree).granted
  have honce := hledger.nodup
  rw [grants_eq_map] at honce ⊢
  rw [List.length_map]
  -- the tokens of one key
  have hkey : ∀ key ∈ generatedKeys C coins h,
      (grantedTokens h).countP (fun token => token.tokenKeyId = C.sha256 key)
        ≤ signaturesUnder key s₀ (issuerHistory h) := by
    intro key hkey
    rw [List.countP_eq_length_filter]
    refine hforge key hkey _ (fun token htoken => ?_) ?_
    · obtain ⟨hmem, hid⟩ := List.mem_filter.mp htoken
      obtain ⟨hpresented, key', hkey', hsigned⟩ := hgranted token hmem
      have hsame : key' = key :=
        hfree hkey' hkey (hsigned.1.symm.trans (of_decide_eq_true hid))
      exact ⟨hpresented, hsame ▸ hsigned⟩
    · have hids : (((grantedTokens h).filter fun token =>
          token.tokenKeyId = C.sha256 key).map SpendToken.id).Nodup :=
        (List.filter_sublist.map _).nodup honce
      rw [List.Nodup, List.pairwise_map] at hids ⊢
      exact hids.imp fun hne heq => hne (SpendToken.id_eq_of_message heq)
  calc (grantedTokens h).length
      ≤ ∑ key ∈ (generatedKeys C coins h).toFinset,
          (grantedTokens h).countP fun token => token.tokenKeyId = C.sha256 key := by
        refine length_le_sum_countP _ _ fun token htoken => ?_
        obtain ⟨-, key, hkey, hsigned⟩ := hgranted token htoken
        exact ⟨key, List.mem_toFinset.mpr hkey, decide_eq_true hsigned.1⟩
    _ ≤ ∑ key ∈ (generatedKeys C coins h).toFinset,
          signaturesUnder key s₀ (issuerHistory h) :=
        Finset.sum_le_sum fun key hmem => hkey key (List.mem_toFinset.mp hmem)
    _ ≤ signatures (issuerHistory h) := sum_signaturesUnder_le _ _ _

/-! ## Quotas -/

theorem IssuerProc.start_limiter {s₀ : IssuerProc cfg} {coins : List UInt8} {now : UInt64}
    {limiter : cfg.limiter.State} (hstart : IssuerProc.start cfg coins now limiter = .ok s₀) :
    s₀.limiter = limiter := by
  obtain ⟨rot, hrot, -⟩ := startRotating_publishes cfg coins now
  rw [IssuerProc.start, hrot] at hstart
  cases hstart
  rfl

section Quota

variable {lim : LimiterConfig}

/-- What is returned is charged. -/
theorem signedIn_of_step {p p' : IssuerProc (cfg.withMemory lim)} {e : IssuerEvent}
    {r : IssuerReply} (h : p.step e = some (p', r)) :
    signatureCount r = 0 ∨ ∃ key, signedIn lim cfg.json (e, r) = some (key, signatureCount r) := by
  by_cases he : ∃ body now limiterNow, e = .sign body now limiterNow
  · obtain ⟨body, now, limiterNow, rfl⟩ := he
    rcases IssuerConfig.sign_withMemory lim cfg p.rot p.limiter body now limiterNow with
      ⟨auth, hdec, hsign⟩ | ⟨r', hnone, hsign⟩
    · obtain ⟨⟨limiter, result⟩, hcall⟩ : ∃ x, IssueCall.step lim p.limiter
          ⟨p.rot.current, cfg.attesterPub, body.req, auth, now, limiterNow⟩ = some x := ⟨_, rfl⟩
      rw [IssuerProc.step_sign_eq (hsign _ hcall)] at h
      cases h
      cases result with
      | ok resp =>
        right
        simp only [Outcome.mapErr_ok, signedIn, hdec, signatureCount]
        exact ⟨_, rfl⟩
      | err e => exact .inl rfl
      | panic => exact .inl rfl
    · rw [IssuerProc.step_sign_eq hsign] at h
      cases h
      cases r' with
      | ok resp => exact absurd rfl (hnone resp)
      | err e => exact .inl rfl
      | panic => exact .inl rfl
  · left
    cases e with
    | sign body now limiterNow => exact absurd ⟨body, now, limiterNow, rfl⟩ he
    | keys => cases h; rfl
    | keysVersion version => cases h; rfl
    | kt => cases h; rfl
    | rotate task header => grind [IssuerProc.step, signatureCount]
    | generate task coins now => grind [IssuerProc.step, signatureCount]
    | write task => grind [IssuerProc.step, signatureCount]

/-- The identities and epochs that a run has charged are in the set. -/
def ChargesOnly (lim : LimiterConfig) (json : AuthorizationJson)
    (charged : Finset (UInt64 × List UInt8)) (h : List (IssuerEvent × IssuerReply)) : Prop :=
  ∀ x ∈ h, ∀ key n, signedIn lim json x = some (key, n) → key ∈ charged

/-- What is returned is charged to one of the keys. -/
theorem signatures_le_sum {charged : Finset (UInt64 × List UInt8)}
    {proc p : IssuerProc (cfg.withMemory lim)} {h : List (IssuerEvent × IssuerReply)}
    (ht : Trace IssuerProc.step proc h p) (hcharged : ChargesOnly lim cfg.json charged h) :
    signatures h ≤ ∑ key ∈ charged, signedFor lim cfg.json key h := by
  induction ht with
  | init => exact Nat.zero_le _
  | @snoc h p p' e r _ hstep ih =>
    have ih := ih fun x hx => hcharged x (List.mem_append_left _ hx)
    have hlast : signatureCount r ≤ ∑ key ∈ charged, signedAs lim cfg.json key (e, r) := by
      rcases signedIn_of_step hstep with hzero | ⟨key, hsigned⟩
      · rw [hzero]
        exact Nat.zero_le _
      · have hmem : key ∈ charged := hcharged (e, r) (by simp) key _ hsigned
        have hone : signedAs lim cfg.json key (e, r) = signatureCount r := by
          rw [signedAs, hsigned]
          exact if_pos rfl
        rw [← hone]
        exact Finset.single_le_sum (f := fun key => signedAs lim cfg.json key (e, r))
          (fun _ _ => Nat.zero_le _) hmem
    simp only [signedFor_snoc, Finset.sum_add_distrib, signatures, List.map_append,
      List.sum_append, List.map_cons, List.map_nil, List.sum_cons, List.sum_nil, Nat.add_zero]
    exact Nat.add_le_add ih hlast

/--
**Accesses are as scarce as issuance.** With different keys on which the hash has no collision,
blind signatures that nobody can get one more of, batches of fewer than 2^32 messages, and the
in-memory limiter below its largest cap: in every run of the issuer, the redeemer and any number of
origins, all origins together have granted at most as many accesses as the issuer has returned blind
signatures, and that is at most the cap for each identity and epoch that was charged.
-/
theorem grants_scarce (hb : lim.Bounded) {s₀ : IssuerProc (cfg.withMemory lim)}
    {coins : List UInt8} {now : UInt64}
    (hstart : IssuerProc.start (cfg.withMemory lim) coins now InMemoryRateLimiter.new = .ok s₀)
    {h : ServiceHistory} {s : Services (cfg.withMemory lim)}
    (ht : Trace Services.step (.start s₀) h s) (hdistinct : (generatedKeys C coins h).Nodup)
    (hfree : C.CollisionFree { m | m ∈ generatedKeys C coins h })
    (hforge : OneMoreUnforgeable coins s₀ h)
    (hlen : ∀ x ∈ issuerHistory h, ∀ body, x.1.call = .sign body →
      body.req.body.blinded.length < 2 ^ 32)
    {charged : Finset (UInt64 × List UInt8)}
    (hcharged : ChargesOnly lim cfg.json charged (issuerHistory h)) :
    (grants h).length ≤ signatures (issuerHistory h) ∧
      signatures (issuerHistory h) ≤ charged.card * lim.maxPerEpoch.toNat := by
  refine ⟨grants_le_signatures hstart ht hdistinct hfree hforge, ?_⟩
  have hnew := IssuerProc.start_limiter hstart
  have hrun := issuer_trace ht
  calc signatures (issuerHistory h)
      ≤ ∑ key ∈ charged, signedFor lim cfg.json key (issuerHistory h) :=
        signatures_le_sum hrun hcharged
    _ ≤ charged.card * lim.maxPerEpoch.toNat :=
        Finset.sum_le_card_nsmul _ _ _ fun key _ => signedFor_le_max hb hnew hrun hlen key

end Quota

/-! ## A concrete run -/

/-- The concrete issuer signs one batch of one message, and then a token is presented. -/
def scarceHistory : ServiceHistory :=
  sampleServicesHistory ++ [(.issuer (.sign sampleSignBody 1030 1030), .issuer sampleSigned)] ++
    Services.presentation 0 1 (authorization sampleToken) none sampleToken 1

theorem limitedIssuer_start :
    IssuerProc.start limitedConfig [1] 1000 InMemoryRateLimiter.new = .ok limitedIssuer := rfl

theorem limitedIssuer_sign :
    limitedConfig.sign limitedIssuer.rot limitedIssuer.limiter sampleSignBody 1030 1030
      = (sampleCharged, .ok ⟨[Crypto.sample.pomfrit.sign2 [1] [5]]⟩) :=
  IssuerConfig.sign_eq_ok limitedConfig_decode (Option.some.inj (sampleCall_step 1))

theorem scarceHistory_trace :
    ∃ s, Trace Services.step (Services.start limitedIssuer) scarceHistory s := by
  let o := OriginState.start Crypto.sample sampleIssuerKey
  let s₁ : Services limitedConfig :=
    { Services.start limitedIssuer with served := [(.keys, .keys sampleIssuerKey)] }
  let s₂ : Services limitedConfig :=
    { s₁ with origins := Function.update s₁.origins 0 (some (sampleOrigin, o)) }
  let s₃ : Services limitedConfig :=
    { s₂ with
      origins := Function.update s₂.origins 0 (some (sampleOrigin, sampleOriginState))
      answers := s₂.answersAfter 0 (.request 0 none (some sampleContext)) }
  let p : IssuerProc limitedConfig := { limitedIssuer with limiter := sampleCharged }
  let s₄ : Services limitedConfig :=
    { s₃ with
      issuer := p
      served := s₃.served ++ [(.sign sampleSignBody 1030 1030, sampleSigned)] }
  have hkeys : (Services.start limitedIssuer).step (.issuer .keys)
      = some (s₁, .issuer (.keys sampleIssuerKey)) := rfl
  have hstart : s₁.step (.startOrigin 0 sampleOrigin sampleIssuerKey) = some (s₂, .started) :=
    Services.step_startOrigin rfl (List.mem_singleton_self _) sampleOrigin
  have hchallenge := Services.step_origin (s := s₂) (Function.update_self ..) rfl
    sampleOriginState_issued
  have hsign : s₃.issuer.step (.sign sampleSignBody 1030 1030) = some (p, sampleSigned) :=
    IssuerProc.step_sign_eq limitedIssuer_sign
  have ht := Trace.snoc (.snoc (.snoc .init hkeys) hstart) hchallenge
  have ht := Trace.append_iff.mpr ⟨s₃, ht, trace_asServices (.snoc .init hsign)⟩
  have horigins : s₄.origins 0 = some (sampleOrigin, sampleOriginState) := by
    simp only [s₄, s₃, Function.update_self]
  have hunspent : (sampleIssuerKey.keyVersion, sampleToken.nonce) ∉ s₄.redeemer.seen :=
    Finset.notMem_empty _
  have hnone : s₄.answers (0, 1) = none := rfl
  obtain ⟨s, hpresent⟩ := Services.presentation_trace horigins rfl hnone sampleToken_parsed
    sampleOriginState_keys sampleToken_checked hunspent none
  exact ⟨s, Trace.append_iff.mpr ⟨s₄, ht, hpresent⟩⟩

theorem presented_presentation {header : String} {token : SpendToken}
    (hparse : parseAuthorization header = .ok token) (i task : Nat) (ctx : Option (Bytes 32))
    (epoch : UInt32) :
    presented (Services.presentation i task header ctx token epoch) = [token] := by
  simp only [presented, Services.presentation, List.filterMap_cons, List.filterMap_nil,
    presentedBy, presentedIn, hparse]

theorem scarceHistory_presented : presented scarceHistory = [sampleToken] := by
  rw [scarceHistory, presented_append, presented_presentation sampleToken_parsed]
  rfl

theorem scarceHistory_issuer : issuerHistory scarceHistory
    = [(.keys, .keys sampleIssuerKey), (.sign sampleSignBody 1030 1030, sampleSigned)] := rfl

/-- The token is the only one, and one signature was made. -/
theorem scarceHistory_unforged : OneMoreUnforgeable [1] limitedIssuer scarceHistory := by
  intro key hkey tokens htokens hnodup
  have hkey : key = keyOfSeed Crypto.sample [1] := List.mem_singleton.mp hkey
  have hsame : tokens = List.replicate tokens.length sampleToken := by
    refine List.eq_replicate_of_mem fun token htoken => ?_
    have hmem := (htokens token htoken).1
    rw [scarceHistory_presented] at hmem
    exact List.mem_singleton.mp hmem
  have hone : tokens.length ≤ 1 := by
    rw [hsame, List.map_replicate] at hnodup
    exact List.nodup_replicate.mp hnodup
  have hkeys : limitedIssuer.step .keys = some (limitedIssuer, .keys sampleIssuerKey) := rfl
  have hcurrent : limitedIssuer.rot.current.pk = key := by
    rw [hkey]
    rfl
  rw [scarceHistory_issuer, signaturesUnder, hkeys]
  dsimp only
  rw [signaturesUnder, if_pos hcurrent, if_pos hcurrent]
  exact hone.trans (Nat.le_trans (Nat.le_add_right 1 _) (Nat.le_add_left _ _))

theorem grants_scarce_sample :
    (grants scarceHistory).length = 1 ∧
      (grants scarceHistory).length ≤ signatures (issuerHistory scarceHistory) ∧
      signatures (issuerHistory scarceHistory) ≤ 1 * 10 := by
  obtain ⟨s, ht⟩ := scarceHistory_trace
  refine ⟨rfl, @grants_scarce _ (sampleConfig [sampleAuthorization]) sampleLimiter (by decide) _
    [1] 1000 limitedIssuer_start _ _ ht (by decide) ?_ scarceHistory_unforged ?_
    {(0, sampleAuthorization.rateLimitId)} ?_⟩
  · intro a ha b hb _
    rw [List.mem_singleton.mp ha, List.mem_singleton.mp hb]
  · rw [scarceHistory_issuer]
    intro x hx body hbody
    rcases List.mem_cons.mp hx with rfl | hx
    · cases hbody
    · rw [List.mem_singleton.mp hx] at hbody
      cases hbody
      decide
  · rw [scarceHistory_issuer]
    intro x hx key n hsigned
    rcases List.mem_cons.mp hx with rfl | hx
    · cases hsigned
    · have hdec : decodeAuthorization (sampleConfig [sampleAuthorization]).json
          sampleSignBody.authorizationB64 = .ok sampleAuthorization := sampleIssuance_decode
      rw [List.mem_singleton.mp hx, sampleSigned, signedIn, hdec] at hsigned
      cases hsigned
      exact List.mem_singleton_self _

end EatPass
