import EatPass.Spec.Agreement
import EatPass.Properties.OriginKeys

/-!
# A token is granted once

The spent set is kept by epoch, and every origin finds out the epoch of a key by itself. With an
honest issuer all origins agree with what is published (`ServicesAgree`), and the generated keys
are different and each was published once, with one version (`KeysFrom`). A token is identified by
its `token_key_id` and its nonce, so it has one epoch, and the redeemer accepts it once; the origin
that gets that answer grants it.

* `LedgerInv.step` — answers of the redeemer on their way and accesses granted never coincide
* `granted_once` — the result
-/

namespace EatPass

open Infra

variable {C : Crypto} {cfg : IssuerConfig C}

/-! ## Different keys -/

/-- The key bytes that come from a seed. -/
def keyOfSeed (C : Crypto) (seed : List UInt8) : List UInt8 := (C.pomfrit.keygen seed).1

/-- The keys generated in a run. -/
def generatedKeys (C : Crypto) (coins : List UInt8) (h : ServiceHistory) : List (List UInt8) :=
  (seedsOf coins (issuerHistory h)).map (keyOfSeed C)

theorem Issuer.From.pk_mem {seeds : List (List UInt8)} {issuer : Issuer}
    (h : issuer.From C seeds) : issuer.pk ∈ seeds.map (keyOfSeed C) := by
  obtain ⟨seed, hseed, version, rfl⟩ := h
  exact List.mem_map.mpr ⟨seed, hseed, rfl⟩

/-- The published keys and the keys of rotations in flight are all different. -/
structure KeysFrom (seeds : List (List UInt8)) (s : IssuerProc cfg) (keys : Published) : Prop
    extends GeneratedFrom seeds s keys where
  nodup : (keys.map fun key => key.1.pk).Nodup
  unpublished : ∀ t issuer now, s.tasks t = some (.generated issuer now) →
    issuer.pk ∉ keys.map fun key => key.1.pk
  apart : ∀ t t' issuer issuer' now now', s.tasks t = some (.generated issuer now) →
    s.tasks t' = some (.generated issuer' now') → issuer.pk = issuer'.pk → t = t'

/-- A step that publishes and generates nothing. -/
theorem KeysFrom.keep {seeds : List (List UInt8)} {s s' : IssuerProc cfg} {keys : Published}
    (hk : KeysFrom seeds s keys) (hrot : s'.rot = s.rot)
    (htasks : ∀ t issuer now, s'.tasks t = some (.generated issuer now) →
      s.tasks t = some (.generated issuer now)) (more : List (List UInt8)) :
    KeysFrom (seeds ++ more) s' keys where
  toGeneratedFrom := hk.toGeneratedFrom.keep hrot htasks more
  nodup := hk.nodup
  unpublished := fun t issuer now ht => hk.unpublished t issuer now (htasks t issuer now ht)
  apart := fun t t' issuer issuer' now now' ht ht' =>
    hk.apart t t' issuer issuer' now now' (htasks t issuer now ht) (htasks t' issuer' now' ht')

/-- A rotation generates a key that is not among the keys so far. -/
theorem KeysFrom.generate {seeds : List (List UInt8)} {s s' : IssuerProc cfg} {keys : Published}
    {task : Nat} {seed : List UInt8} {version : UInt32} {now : UInt64} (hk : KeysFrom seeds s keys)
    (hrot : s'.rot = s.rot)
    (htasks : s'.tasks = Function.update s.tasks task
      (some (.generated (Issuer.generate C seed version) now)))
    (hnew : keyOfSeed C seed ∉ seeds.map (keyOfSeed C)) : KeysFrom (seeds ++ [seed]) s' keys := by
  -- a waiting key is the new one or was waiting before
  have hcases : ∀ t i n, s'.tasks t = some (.generated i n) →
      (t = task ∧ i.pk = keyOfSeed C seed) ∨ (t ≠ task ∧ s.tasks t = some (.generated i n)) := by
    intro t i n ht
    rw [htasks] at ht
    by_cases hne : t = task
    · rw [hne, Function.update_self] at ht
      cases ht
      exact .inl ⟨hne, rfl⟩
    · rw [Function.update_of_ne hne] at ht
      exact .inr ⟨hne, ht⟩
  have hold : ∀ t i n, s.tasks t = some (.generated i n) → i.pk ≠ keyOfSeed C seed :=
    fun t i n ht heq => hnew (heq ▸ (hk.waiting t i n ht).pk_mem)
  refine ⟨hk.toGeneratedFrom.generate hrot htasks, hk.nodup, ?_, ?_⟩
  · intro t i n ht
    rcases hcases t i n ht with ⟨-, hpk⟩ | ⟨-, ht⟩
    · rw [hpk]
      intro hmem
      obtain ⟨key, hkey, heq⟩ := List.mem_map.mp hmem
      exact hnew (heq ▸ (hk.published key hkey).pk_mem)
    · exact hk.unpublished t i n ht
  · intro t t' i i' n n' ht ht' heq
    rcases hcases t i n ht with ⟨h1, hpk⟩ | ⟨h1, ht⟩ <;>
      rcases hcases t' i' n' ht' with ⟨h2, hpk'⟩ | ⟨h2, ht'⟩
    · rw [h1, h2]
    · exact absurd (heq.symm.trans hpk) (hold t' i' n' ht')
    · exact absurd (heq.trans hpk') (hold t i n ht)
    · exact hk.apart t t' i i' n n' ht ht' heq

/-- A rotation publishes the key it has generated. -/
theorem KeysFrom.write {seeds : List (List UInt8)} {s s' : IssuerProc cfg} {keys : Published}
    {task : Nat} {issuer : Issuer} {now : UInt64} {response : RotateResponse}
    (hk : KeysFrom seeds s keys) (hgen : s.tasks task = some (.generated issuer now))
    (hwrite : s.rot.write cfg issuer now = .ok (s'.rot, response))
    (htasks : s'.tasks = Function.update s.tasks task none) :
    KeysFrom seeds s' (keys ++ [(issuer, now)]) := by
  -- the other rotations in flight are where they were
  have hcases : ∀ t i n, s'.tasks t = some (.generated i n) →
      t ≠ task ∧ s.tasks t = some (.generated i n) := by
    intro t i n ht
    rw [htasks] at ht
    by_cases hne : t = task
    · rw [hne, Function.update_self] at ht
      cases ht
    · rw [Function.update_of_ne hne] at ht
      exact ⟨hne, ht⟩
  refine ⟨hk.toGeneratedFrom.write hgen hwrite htasks, ?_, ?_, ?_⟩
  · rw [List.map_append, List.nodup_append]
    refine ⟨hk.nodup, List.nodup_singleton _, fun a ha b hb => ?_⟩
    rw [List.mem_singleton.mp hb]
    rintro rfl
    exact hk.unpublished task issuer now hgen ha
  · intro t i n ht hmem
    obtain ⟨hne, ht⟩ := hcases t i n ht
    rw [List.map_append, List.mem_append] at hmem
    rcases hmem with hmem | hmem
    · exact hk.unpublished t i n ht hmem
    · exact hne (hk.apart t task i issuer n now ht hgen (List.mem_singleton.mp hmem))
  · exact fun t t' i i' n n' ht ht' heq =>
      hk.apart t t' i i' n n' (hcases t i n ht).2 (hcases t' i' n' ht').2 heq

/-- **A step keeps the keys different**, as long as the generated ones are. -/
theorem KeysFrom.step {seeds : List (List UInt8)} {s s' : IssuerProc cfg} {keys : Published}
    {e : IssuerEvent} {r : IssuerReply} (hk : KeysFrom seeds s keys)
    (hnodup : ((seeds ++ e.seed.toList).map (keyOfSeed C)).Nodup)
    (hstep : s.step e = some (s', r)) :
    ∃ more, KeysFrom (seeds ++ e.seed.toList) s' (keys ++ more) := by
  cases IssuerProc.step_cases hstep with
  | quiet rot tasks event reply =>
    refine ⟨[], ?_⟩
    rw [List.append_nil]
    exact hk.keep rot (fun t i n => tasks t _) _
  | read task header version event reply free next rot tasks =>
    refine ⟨[], ?_⟩
    rw [List.append_nil]
    refine hk.keep rot (fun t i n ht => ?_) _
    rw [tasks, Function.update_apply] at ht
    split at ht
    · cases ht
    · exact ht
  | generate task coins now version event reply read rot tasks =>
    subst event
    refine ⟨[], ?_⟩
    rw [List.append_nil]
    -- the new seed comes after the others in a list without repetition
    refine hk.generate rot tasks fun hmem => ?_
    rw [List.map_append, List.nodup_append] at hnodup
    exact hnodup.2.2 _ hmem _ (List.mem_map_of_mem (List.mem_singleton_self _)) rfl
  | write task newIssuer now response event reply generated rot tasks =>
    subst event
    rw [show (IssuerEvent.write task).seed = none from rfl, Option.toList_none, List.append_nil]
    exact ⟨[(newIssuer, now)], hk.write generated rot tasks⟩

theorem KeysFrom.start {s₀ : IssuerProc cfg} {coins : List UInt8} {now : UInt64}
    {limiter : cfg.limiter.State} (hstart : IssuerProc.start cfg coins now limiter = .ok s₀) :
    KeysFrom [coins] s₀ [(Issuer.generate C coins 1, now)] := by
  obtain ⟨-, htasks⟩ := IssuerProc.start_publishes hstart
  refine ⟨GeneratedFrom.start hstart, List.nodup_singleton _, ?_, ?_⟩
  · intro t issuer time ht
    rw [htasks] at ht
    cases ht
  · intro t t' issuer issuer' time time' ht
    rw [htasks] at ht
    cases ht

/-- Two published keys with one `token_key_id` are the same. -/
theorem KeysFrom.unique {seeds : List (List UInt8)} {s : IssuerProc cfg} {keys : Published}
    (hk : KeysFrom seeds s keys) (hfree : C.CollisionFree { m | m ∈ seeds.map (keyOfSeed C) })
    {a b : Issuer × UInt64} (ha : a ∈ keys) (hb : b ∈ keys)
    (heq : a.1.public.tokenKeyId C = b.1.public.tokenKeyId C) : a = b := by
  have hpk : a.1.pk = b.1.pk :=
    hfree (hk.published a ha).pk_mem (hk.published b hb).pk_mem heq
  exact List.inj_on_of_nodup_map hk.nodup ha hb hpk

/-! ## Grants -/

/-- What a token is identified by. -/
def SpendToken.id (token : SpendToken) : Bytes 32 × Bytes 32 := (token.tokenKeyId, token.nonce)

/-- The token that an answer 200 was given for. -/
def grantOf : ServiceEvent × ServiceReply → Option (Bytes 32 × Bytes 32)
  | (_, .origin (.granted token)) => some token.id
  | _ => none

/-- The tokens for which some origin has answered 200, in order. -/
def grants (h : ServiceHistory) : List (Bytes 32 × Bytes 32) := h.filterMap grantOf

theorem grants_snoc (h : ServiceHistory) (x : ServiceEvent × ServiceReply) :
    grants (h ++ [x]) = grants h ++ (grantOf x).toList := by
  rw [grants, List.filterMap_append]
  cases hx : grantOf x <;> simp [grants, hx]

/-! ## The ledger -/

/-- The redeemer has accepted the token of a request that does not know it yet. -/
def Services.Accepted (s : Services cfg) (p : Nat × Nat) (token : SpendToken) (body : RedeemBody) :
    Prop :=
  s.answers p = some .ok ∧ ∃ ocfg o, s.origins p.1 = some (ocfg, o) ∧
    o.tasks p.2 = some (.redeeming token body)

/--
An accepted token is spent, whether the request knows it or not, and every token is accepted for
one request only.
-/
structure LedgerInv (h : ServiceHistory) (s : Services cfg) (keys : Published) : Prop where
  waiting : ∀ p code, s.answers p = some code → ∃ ocfg o token body,
    s.origins p.1 = some (ocfg, o) ∧ o.tasks p.2 = some (.redeeming token body)
  granted : ∀ g ∈ grants h, ∃ key ∈ keys, g.1 = key.1.public.tokenKeyId C ∧
    (key.1.keyVersion, g.2) ∈ s.redeemer.seen
  accepted : ∀ p token body, s.Accepted p token body →
    (body.keyEpoch, token.nonce) ∈ s.redeemer.seen ∧ token.id ∉ grants h
  apart : ∀ p q token token' body body', s.Accepted p token body → s.Accepted q token' body' →
    token.id = token'.id → p = q
  nodup : (grants h).Nodup

theorem LedgerInv.mono {h : ServiceHistory} {s : Services cfg} {keys : Published}
    (hl : LedgerInv h s keys) (more : Published) : LedgerInv h s (keys ++ more) where
  waiting := hl.waiting
  granted := fun g hg => by
    obtain ⟨key, hkey, hrest⟩ := hl.granted g hg
    exact ⟨key, List.mem_append_left _ hkey, hrest⟩
  accepted := hl.accepted
  apart := hl.apart
  nodup := hl.nodup

/-- A step that grants nothing and makes no new request accepted. -/
theorem LedgerInv.keep {h : ServiceHistory} {s s' : Services cfg} {keys : Published}
    {x : ServiceEvent × ServiceReply} (hl : LedgerInv h s keys) (hgrant : grantOf x = none)
    (hseen : s.redeemer.seen ⊆ s'.redeemer.seen)
    (hwaiting : ∀ p code, s'.answers p = some code → ∃ ocfg o token body,
      s'.origins p.1 = some (ocfg, o) ∧ o.tasks p.2 = some (.redeeming token body))
    (haccepted : ∀ p token body, s'.Accepted p token body → s.Accepted p token body) :
    LedgerInv (h ++ [x]) s' keys := by
  have hgrants : grants (h ++ [x]) = grants h := by
    rw [grants_snoc, hgrant, Option.toList_none, List.append_nil]
  refine ⟨hwaiting, ?_, ?_, ?_, hgrants ▸ hl.nodup⟩
  · intro g hg
    rw [hgrants] at hg
    obtain ⟨key, hkey, htkid, hmem⟩ := hl.granted g hg
    exact ⟨key, hkey, htkid, hseen hmem⟩
  · intro p token body hacc
    obtain ⟨hmem, hnot⟩ := hl.accepted p token body (haccepted p token body hacc)
    exact ⟨hseen hmem, hgrants ▸ hnot⟩
  · intro p q token token' body body' hp hq
    exact hl.apart p q token token' body body' (haccepted _ _ _ hp) (haccepted _ _ _ hq)

/-- What a step of one origin leaves: requests with an answer on its way are where they were. -/
theorem Services.frame {s s' : Services cfg} {i : Nat} {ocfg : OriginConfig} {o o' : OriginState}
    (hrunning : s.origins i = some (ocfg, o))
    (horigins : s'.origins = Function.update s.origins i (some (ocfg, o')))
    (htasks : ∀ task code, s'.answers (i, task) = some code → o'.tasks task = o.tasks task)
    {p : Nat × Nat} {code : StatusCode} (hp : s'.answers p = some code) {t : ResourceTask} :
    (∃ ocfg o, s'.origins p.1 = some (ocfg, o) ∧ o.tasks p.2 = some t) ↔
      ∃ ocfg o, s.origins p.1 = some (ocfg, o) ∧ o.tasks p.2 = some t := by
  obtain ⟨j, task⟩ := p
  rw [horigins]
  by_cases hj : j = i
  · subst hj
    simp only [Function.update_self, hrunning, Option.some.injEq, Prod.mk.injEq]
    have htask := htasks task code hp
    constructor
    · rintro ⟨_, _, ⟨rfl, rfl⟩, ht⟩
      exact ⟨ocfg, o, ⟨rfl, rfl⟩, htask ▸ ht⟩
    · rintro ⟨_, _, ⟨rfl, rfl⟩, ht⟩
      exact ⟨ocfg, o', ⟨rfl, rfl⟩, htask ▸ ht⟩
  · rw [Function.update_of_ne hj]

/-- An origin's step that grants nothing and keeps the requests with an answer on its way. -/
theorem LedgerInv.originStep {h : ServiceHistory} {s s' : Services cfg} {keys : Published}
    {x : ServiceEvent × ServiceReply} {i : Nat} {ocfg : OriginConfig} {o o' : OriginState}
    (hl : LedgerInv h s keys) (hgrant : grantOf x = none)
    (hrunning : s.origins i = some (ocfg, o))
    (horigins : s'.origins = Function.update s.origins i (some (ocfg, o')))
    (hredeemer : s'.redeemer = s.redeemer)
    (hanswers : ∀ p code, s'.answers p = some code → s.answers p = some code)
    (htasks : ∀ task code, s'.answers (i, task) = some code → o'.tasks task = o.tasks task) :
    LedgerInv (h ++ [x]) s' keys := by
  refine hl.keep hgrant (by rw [hredeemer]) ?_ ?_
  · intro p code hp
    obtain ⟨_, _, token, body, hrest⟩ := hl.waiting p code (hanswers p code hp)
    obtain ⟨ocfg', o'', hrest'⟩ :=
      (Services.frame hrunning horigins htasks hp).mpr ⟨_, _, hrest⟩
    exact ⟨ocfg', o'', token, body, hrest'⟩
  · rintro p token body ⟨hp, hrest⟩
    exact ⟨hanswers p .ok hp, (Services.frame hrunning horigins htasks hp).mp hrest⟩

/-- An accepted request learns about it and grants access. -/
theorem LedgerInv.grant {h : ServiceHistory} {s s' : Services cfg} {keys : Published}
    {x : ServiceEvent × ServiceReply} {i task : Nat} {ocfg : OriginConfig} {o o' : OriginState}
    {token : SpendToken} {body : RedeemBody} (hl : LedgerInv h s keys)
    (hagree : OriginAgrees C keys o) (hgrant : grantOf x = some token.id)
    (hrunning : s.origins i = some (ocfg, o))
    (hat : o.tasks task = some (.redeeming token body))
    (hanswer : s.answers (i, task) = some .ok)
    (horigins : s'.origins = Function.update s.origins i (some (ocfg, o')))
    (htasks : o'.tasks = Function.update o.tasks task none)
    (hredeemer : s'.redeemer = s.redeemer)
    (hanswers : s'.answers = Function.update s.answers (i, task) none) :
    LedgerInv (h ++ [x]) s' keys := by
  have hacc : s.Accepted (i, task) token body := ⟨hanswer, ocfg, o, hrunning, hat⟩
  have hgrants : grants (h ++ [x]) = grants h ++ [token.id] := by
    rw [grants_snoc, hgrant, Option.toList_some]
  -- the answer is used up, and every other answer is where it was
  have hother : ∀ p code, s'.answers p = some code → p ≠ (i, task) ∧ s.answers p = some code := by
    intro p code hp
    rw [hanswers, Function.update_apply] at hp
    split at hp
    · cases hp
    · next hne => exact ⟨hne, hp⟩
  have hsame : ∀ t code, s'.answers (i, t) = some code → o'.tasks t = o.tasks t := by
    intro t code hp
    have hne : t ≠ task := fun he => (hother _ _ hp).1 (by rw [he])
    rw [htasks, Function.update_of_ne hne]
  have hold : ∀ p token' body', s'.Accepted p token' body' →
      p ≠ (i, task) ∧ s.Accepted p token' body' := by
    rintro p token' body' ⟨hp, hrest⟩
    exact ⟨(hother p _ hp).1, (hother p _ hp).2,
      (Services.frame hrunning horigins hsame hp).mp hrest⟩
  obtain ⟨hspent, hnew⟩ := hl.accepted _ _ _ hacc
  refine ⟨?_, ?_, ?_, ?_, ?_⟩
  · intro p code hp
    obtain ⟨_, _, token', body', hrest⟩ := hl.waiting p code (hother p code hp).2
    obtain ⟨ocfg', o'', hrest'⟩ := (Services.frame hrunning horigins hsame hp).mpr ⟨_, _, hrest⟩
    exact ⟨ocfg', o'', token', body', hrest'⟩
  · intro g hg
    rw [hgrants, List.mem_append, List.mem_singleton] at hg
    rw [hredeemer]
    rcases hg with hg | rfl
    · exact hl.granted g hg
    · obtain ⟨key, hkey, htkid, rfl⟩ := hagree.redeeming task token body hat
      exact ⟨key, hkey, htkid, hspent⟩
  · intro p token' body' hp
    obtain ⟨hne, hp⟩ := hold p token' body' hp
    obtain ⟨hspent', hnew'⟩ := hl.accepted p token' body' hp
    refine ⟨hredeemer ▸ hspent', ?_⟩
    rw [hgrants, List.mem_append, List.mem_singleton]
    rintro (hmem | heq)
    · exact hnew' hmem
    · exact hne (hl.apart p (i, task) token' token body' body hp hacc heq)
  · intro p q token₁ token₂ body₁ body₂ hp hq
    exact hl.apart p q token₁ token₂ body₁ body₂ (hold _ _ _ hp).2 (hold _ _ _ hq).2
  · rw [hgrants, List.nodup_append]
    refine ⟨hl.nodup, List.nodup_singleton _, fun a ha b hb => ?_⟩
    rw [List.mem_singleton.mp hb]
    rintro rfl
    exact hnew ha

section Unseen

variable {seeds : List (List UInt8)} {h : ServiceHistory} {s : Services cfg} {keys : Published}
  {key : Issuer × UInt64} {token : SpendToken}

/-- **A token whose spend is not recorded was not granted.** -/
theorem LedgerInv.not_granted (hl : LedgerInv h s keys) (hkeys : KeysFrom seeds s.issuer keys)
    (hfree : C.CollisionFree { m | m ∈ seeds.map (keyOfSeed C) }) (hkey : key ∈ keys)
    (htkid : token.tokenKeyId = key.1.public.tokenKeyId C)
    (hnew : (key.1.keyVersion, token.nonce) ∉ s.redeemer.seen) : token.id ∉ grants h := by
  intro hg
  obtain ⟨key', hkey', htkid', hspent⟩ := hl.granted _ hg
  cases hkeys.unique hfree hkey hkey' (htkid ▸ htkid')
  exact hnew hspent

/-- It is not the token of an accepted request either. -/
theorem LedgerInv.not_accepted (hl : LedgerInv h s keys) (hkeys : KeysFrom seeds s.issuer keys)
    (hagree : ServicesAgree s keys)
    (hfree : C.CollisionFree { m | m ∈ seeds.map (keyOfSeed C) }) (hkey : key ∈ keys)
    (htkid : token.tokenKeyId = key.1.public.tokenKeyId C)
    (hnew : (key.1.keyVersion, token.nonce) ∉ s.redeemer.seen) {p : Nat × Nat}
    {token' : SpendToken} {body' : RedeemBody} (hacc : s.Accepted p token' body') :
    token.id ≠ token'.id := by
  intro heq
  obtain ⟨-, ocfg', o', hrun, ht⟩ := id hacc
  obtain ⟨key', hkey', htkid', hbody'⟩ :=
    (hagree.origins p.1 ocfg' o' hrun).redeeming p.2 token' body' ht
  have hspent := (hl.accepted p token' body' hacc).1
  obtain ⟨h1, h2⟩ := Prod.mk.inj heq
  cases hkeys.unique hfree hkey hkey' (htkid ▸ htkid' ▸ h1)
  rw [hbody'] at hspent
  exact hnew (h2 ▸ hspent)

end Unseen

/-- The redeemer handles the body of a request. -/
theorem LedgerInv.redeemStep {seeds : List (List UInt8)} {h : ServiceHistory} {s s' : Services cfg}
    {keys : Published} {x : ServiceEvent × ServiceReply} {i task : Nat} {ocfg : OriginConfig}
    {o : OriginState} {token : SpendToken} {body sent : RedeemBody} (hl : LedgerInv h s keys)
    (hkeys : KeysFrom seeds s.issuer keys) (hagree : ServicesAgree s keys)
    (hfree : C.CollisionFree { m | m ∈ seeds.map (keyOfSeed C) }) (hgrant : grantOf x = none)
    (hrunning : s.origins i = some (ocfg, o)) (hat : o.tasks task = some (.redeeming token sent))
    (hsame : Services.sameSpend sent body = true) (horigins : s'.origins = s.origins)
    (hredeemer : s'.redeemer = (redeem inMemorySpentStore s.redeemer body).1)
    (hanswers : s'.answers = Function.update s.answers (i, task)
      (Reply.status (redeem inMemorySpentStore s.redeemer body).2)) :
    LedgerInv (h ++ [x]) s' keys := by
  have hgrants : grants (h ++ [x]) = grants h := by
    rw [grants_snoc, hgrant, Option.toList_none, List.append_nil]
  obtain ⟨hseen, hok⟩ := redeem_inMemory s.redeemer body
  rw [← hredeemer] at hseen hok
  obtain ⟨hepoch, hnonce⟩ : body.keyEpoch = sent.keyEpoch ∧ body.readNonce = sent.readNonce :=
    of_decide_eq_true hsame
  obtain ⟨key, hkey, htkid, hsent⟩ :=
    (hagree.origins i ocfg o hrunning).redeeming task token sent hat
  -- an accepted request is this one, accepted just now, or was accepted before
  have hcases : ∀ p token' body', s'.Accepted p token' body' →
      (p = (i, task) ∧ token' = token ∧ body' = sent ∧
        (key.1.keyVersion, token.nonce) ∉ s.redeemer.seen ∧
        (key.1.keyVersion, token.nonce) ∈ s'.redeemer.seen) ∨
      (p ≠ (i, task) ∧ s.Accepted p token' body') := by
    rintro p token' body' ⟨hp, hrest⟩
    rw [hanswers, Function.update_apply] at hp
    rw [horigins] at hrest
    split at hp
    · next heq =>
      subst heq
      obtain ⟨n, hn, hnew, hmem⟩ := hok hp
      rw [hnonce, hsent, readNonce_spendBody] at hn
      cases hn
      rw [hepoch, hsent] at hnew hmem
      obtain ⟨_, _, hrun, ht⟩ := hrest
      rw [hrunning] at hrun
      cases hrun
      rw [hat] at ht
      cases ht
      exact .inl ⟨rfl, rfl, rfl, hnew, hmem⟩
    · next hne => exact .inr ⟨hne, hp, hrest⟩
  refine ⟨?_, ?_, ?_, ?_, hgrants ▸ hl.nodup⟩
  · intro p code hp
    rw [hanswers, Function.update_apply] at hp
    rw [horigins]
    split at hp
    · next heq => exact ⟨ocfg, o, token, sent, by rw [heq]; exact ⟨hrunning, hat⟩⟩
    · exact hl.waiting p code hp
  · intro g hg
    obtain ⟨key', hkey', htkid', hmem⟩ := hl.granted g (hgrants ▸ hg)
    exact ⟨key', hkey', htkid', hseen hmem⟩
  · intro p token' body' hp
    rw [hgrants]
    rcases hcases p token' body' hp with ⟨-, rfl, rfl, hnew, hmem⟩ | ⟨-, hp⟩
    · exact ⟨by rw [hsent]; exact hmem, hl.not_granted hkeys hfree hkey htkid hnew⟩
    · exact ⟨hseen (hl.accepted p token' body' hp).1, (hl.accepted p token' body' hp).2⟩
  · intro p q token₁ token₂ body₁ body₂ hp hq heq
    rcases hcases p token₁ body₁ hp with ⟨hpi, rfl, rfl, hnew, -⟩ | ⟨-, hpacc⟩ <;>
      rcases hcases q token₂ body₂ hq with ⟨hqi, rfl, rfl, hnew', -⟩ | ⟨-, hqacc⟩
    · rw [hpi, hqi]
    · exact absurd heq (hl.not_accepted hkeys hagree hfree hkey htkid hnew hqacc)
    · exact absurd heq.symm (hl.not_accepted hkeys hagree hfree hkey htkid hnew' hpacc)
    · exact hl.apart p q token₁ token₂ body₁ body₂ hpacc hqacc heq

/-- A request that is not at the redeemer has no answer on its way, so it may move. -/
theorem LedgerInv.tasks_eq {h : ServiceHistory} {s : Services cfg} {keys : Published} {i : Nat}
    {ocfg : OriginConfig} {o o' : OriginState} (hl : LedgerInv h s keys)
    (hrunning : s.origins i = some (ocfg, o)) {task : Nat} {t : Option ResourceTask}
    (hat : ∀ token body, o.tasks task ≠ some (.redeeming token body))
    (htasks : o'.tasks = Function.update o.tasks task t) {task' : Nat} {code : StatusCode}
    (hp : s.answers (i, task') = some code) : o'.tasks task' = o.tasks task' := by
  have hne : task' ≠ task := by
    rintro rfl
    obtain ⟨_, _, token, body, hrun, ht⟩ := hl.waiting (i, task') code hp
    rw [hrunning] at hrun
    cases hrun
    exact hat token body ht
  rw [htasks, Function.update_of_ne hne]

theorem grantOf_origin {i : Nat} {oe : OriginEvent} {or : OriginReply}
    (hnot : ∀ token, or ≠ .granted token) :
    grantOf (ServiceEvent.origin i oe, ServiceReply.origin or) = none := by
  cases or with
  | granted token => exact absurd rfl (hnot token)
  | working => rfl
  | challenge www => rfl
  | refused status text => rfl
  | panic => rfl

/-- **A step of an origin keeps the ledger.** -/
theorem LedgerInv.origin {h : ServiceHistory} {s s' : Services cfg} {keys : Published} {i : Nat}
    {ocfg : OriginConfig} {o o' : OriginState} {oe : OriginEvent} {or : OriginReply}
    (hl : LedgerInv h s keys) (hagree : OriginAgrees C keys o)
    (hrunning : s.origins i = some (ocfg, o)) (hhonest : s.delivers i o oe = true)
    (hstep : o.step C ocfg oe = some (o', or))
    (horigins : s'.origins = Function.update s.origins i (some (ocfg, o')))
    (hredeemer : s'.redeemer = s.redeemer) (hanswers : s'.answers = s.answersAfter i oe) :
    LedgerInv (h ++ [(.origin i oe, .origin or)]) s' keys := by
  -- most steps grant nothing and use up no answer
  have hquiet : (∀ token, or ≠ .granted token) → s'.answers = s.answers →
      (∀ task' code, s.answers (i, task') = some code → o'.tasks task' = o.tasks task') →
      LedgerInv (h ++ [(.origin i oe, .origin or)]) s' keys := by
    intro hnot hans htasks
    refine hl.originStep (grantOf_origin hnot) hrunning horigins hredeemer ?_ ?_
    · intro p code hp
      rwa [hans] at hp
    · intro task' code hp
      rw [hans] at hp
      exact htasks task' code hp
  cases OriginState.step_cases hstep with
  | answered task header ctx event keys' tasks reply =>
    subst event
    exact hquiet reply hanswers fun task' _ _ => by rw [tasks]
  | cached task header ctx token entry event free hit keys' tasks reply =>
    subst event
    exact hquiet (by simp [reply]) hanswers fun _ _ =>
      hl.tasks_eq hrunning (by simp [free]) tasks
  | missed task header ctx token event free keys' tasks reply =>
    subst event
    exact hquiet (by simp [reply]) hanswers fun _ _ =>
      hl.tasks_eq hrunning (by simp [free]) tasks
  | logged task token kt rec event at_ lookup keys' tasks reply =>
    subst event
    exact hquiet (by simp [reply]) hanswers fun _ _ =>
      hl.tasks_eq hrunning (by simp [at_]) tasks
  | resolved task token version pk entry event at_ accept keys' tasks reply =>
    subst event
    exact hquiet (by simp [reply]) hanswers fun _ _ =>
      hl.tasks_eq hrunning (by simp [at_]) tasks
  | checked task token entry nonce event at_ check keys' tasks reply =>
    subst event
    exact hquiet (by simp [reply]) hanswers fun _ _ =>
      hl.tasks_eq hrunning (by simp [at_]) tasks
  | granted task token body event at_ keys' tasks reply =>
    subst event reply
    exact hl.grant hagree rfl hrunning at_ (of_decide_eq_true hhonest) horigins tasks hredeemer
      hanswers
  | refused task answer event keys' tasks reply =>
    subst event
    have hans : s'.answers = Function.update s.answers (i, task) none := hanswers
    refine hl.originStep (grantOf_origin reply) hrunning horigins hredeemer ?_ ?_
    · intro p code hp
      rw [hans, Function.update_apply] at hp
      split at hp
      · cases hp
      · exact hp
    · intro task' code hp
      have hne : task' ≠ task := by
        rintro rfl
        rw [hans, Function.update_self] at hp
        cases hp
      rw [tasks, Function.update_of_ne hne]
  | dropped task event at_ keys' tasks reply =>
    refine hquiet reply (hanswers.trans ?_) fun _ _ =>
      hl.tasks_eq hrunning at_ tasks
    cases oe with
    | redeemAnswer t answer => exact absurd rfl (event t answer)
    | request => rfl
    | ktAnswer => rfl
    | keyAnswer => rfl
    | check => rfl

/-- **A step keeps the ledger.** -/
theorem LedgerInv.step {seeds : List (List UInt8)} {h : ServiceHistory} {s s' : Services cfg}
    {keys : Published} {e : ServiceEvent} {r : ServiceReply} (hl : LedgerInv h s keys)
    (hkeys : KeysFrom seeds s.issuer keys) (hagree : ServicesAgree s keys)
    (hfree : C.CollisionFree { m | m ∈ seeds.map (keyOfSeed C) })
    (hstep : s.step e = some (s', r)) : LedgerInv (h ++ [(e, r)]) s' keys := by
  cases Services.step_cases hstep with
  | issuer ie ir event reply step served origins redeemer answers =>
    subst event reply
    refine hl.keep rfl (by rw [redeemer]) ?_ ?_
    · rw [answers, origins]
      exact hl.waiting
    · intro p token body hacc
      rwa [Services.Accepted, answers, origins] at hacc
  | startOrigin i ocfg pk event reply free mem issuer served origins redeemer answers =>
    subst event reply
    have hkept : ∀ p code, s.answers p = some code → s'.origins p.1 = s.origins p.1 := by
      intro p code hp
      obtain ⟨_, _, _, _, hrun, -⟩ := hl.waiting p code hp
      have hne : p.1 ≠ i := by
        intro heq
        rw [heq, free] at hrun
        cases hrun
      rw [origins, Function.update_of_ne hne]
    refine hl.keep rfl (by rw [redeemer]) ?_ ?_
    · intro p code hp
      rw [answers] at hp
      rw [hkept p code hp]
      exact hl.waiting p code hp
    · rintro p token body ⟨hp, hrest⟩
      rw [answers] at hp
      rw [hkept p _ hp] at hrest
      exact ⟨hp, hrest⟩
  | origin i ocfg o o' oe or event reply running honest step issuer served origins redeemer
      answers =>
    subst event reply
    exact hl.origin (hagree.origins i ocfg o running) running honest step origins redeemer answers
  | redeem i task body sent ocfg o token event running at_ unanswered same reply issuer served
      origins redeemer answers =>
    subst event reply
    exact hl.redeemStep hkeys hagree hfree rfl running at_ same origins redeemer answers
  | strangeRedeem body event reply issuer served origins redeemer answers =>
    subst event reply
    refine hl.keep rfl (by rw [redeemer]; exact (redeem_inMemory s.redeemer body).1) ?_ ?_
    · rw [answers, origins]
      exact hl.waiting
    · intro p token' body' hacc
      rwa [Services.Accepted, answers, origins] at hacc

/-! ## Runs -/

theorem LedgerInv.start (s₀ : IssuerProc cfg) (keys : Published) :
    LedgerInv [] (Services.start s₀) keys where
  waiting := by
    intro p code hp
    cases hp
  granted := by
    intro g hg
    exact absurd hg List.not_mem_nil
  accepted := by
    rintro p token body ⟨hp, -⟩
    cases hp
  apart := by
    rintro p q token token' body body' ⟨hp, -⟩
    cases hp
  nodup := List.nodup_nil

/-- The seed of a step of the services, if it is a step of the issuer that generates a key. -/
theorem seedsOf_issuerHistory_snoc (coins : List UInt8) (h : ServiceHistory)
    (x : ServiceEvent × ServiceReply) :
    seedsOf coins (issuerHistory (h ++ [x])) = seedsOf coins (issuerHistory h) ++
      ((issuerPart x).bind fun y => y.1.seed).toList := by
  rw [issuerHistory_append]
  cases hx : issuerPart x with
  | none => simp [issuerHistory, hx]
  | some y =>
    have hlast : issuerHistory [x] = [y] := by simp [issuerHistory, hx]
    rw [hlast, seedsOf_snoc]
    rfl

/-- A step of the services is a step of the issuer or leaves it alone. -/
theorem KeysFrom.serviceStep {seeds : List (List UInt8)} {s s' : Services cfg} {keys : Published}
    {e : ServiceEvent} {r : ServiceReply} (hk : KeysFrom seeds s.issuer keys)
    (hnodup : ((seeds ++ ((issuerPart (e, r)).bind fun y => y.1.seed).toList).map
      (keyOfSeed C)).Nodup) (hstep : s.step e = some (s', r)) :
    ∃ more, KeysFrom (seeds ++ ((issuerPart (e, r)).bind fun y => y.1.seed).toList) s'.issuer
      (keys ++ more) := by
  have hquiet : s'.issuer = s.issuer →
      ∃ more, KeysFrom (seeds ++ ((issuerPart (e, r)).bind fun y => y.1.seed).toList) s'.issuer
        (keys ++ more) := by
    intro hissuer
    refine ⟨[], ?_⟩
    rw [List.append_nil, hissuer]
    exact hk.keep rfl (fun _ _ _ ht => ht) _
  cases Services.step_cases hstep with
  | issuer ie ir event reply step served origins redeemer answers =>
    subst event reply
    exact hk.step hnodup step
  | startOrigin i ocfg pk event reply free mem issuer served origins redeemer answers =>
    exact hquiet issuer
  | origin i ocfg o o' oe or event reply running honest step issuer served origins redeemer
      answers =>
    exact hquiet issuer
  | redeem i task body sent ocfg o token event running at_ unanswered same reply issuer served
      origins redeemer answers =>
    exact hquiet issuer
  | strangeRedeem body event reply issuer served origins redeemer answers => exact hquiet issuer

/-- The agreement and the ledger after a run in which the generated keys are different. -/
theorem ledger_trace {s₀ : IssuerProc cfg} {coins : List UInt8} {now : UInt64}
    {limiter : cfg.limiter.State} (hstart : IssuerProc.start cfg coins now limiter = .ok s₀)
    {h : ServiceHistory} {s : Services cfg} (ht : Trace Services.step (.start s₀) h s) :
    (generatedKeys C coins h).Nodup → C.CollisionFree { m | m ∈ generatedKeys C coins h } →
      ∃ keys, KeysFrom (seedsOf coins (issuerHistory h)) s.issuer keys ∧ ServicesAgree s keys ∧
        LedgerInv h s keys := by
  induction ht with
  | init =>
    intro _ _
    have hkeys := KeysFrom.start hstart
    exact ⟨_, hkeys, ServicesAgree.start hkeys.publishes, LedgerInv.start s₀ _⟩
  | @snoc h s s' e r _ hstep ih =>
    rw [generatedKeys, seedsOf_issuerHistory_snoc]
    intro hnodup hfree
    -- the assumptions on all keys are assumptions on the earlier ones
    have hsub : { m | m ∈ generatedKeys C coins h } ⊆
        { m | m ∈ (seedsOf coins (issuerHistory h) ++
          ((issuerPart (e, r)).bind fun y => y.1.seed).toList).map (keyOfSeed C) } := by
      intro m hm
      have hmem : m ∈ (seedsOf coins (issuerHistory h)).map (keyOfSeed C) ++
          ((issuerPart (e, r)).bind fun y => y.1.seed).toList.map (keyOfSeed C) :=
        List.mem_append_left _ hm
      rw [← List.map_append] at hmem
      exact hmem
    have hbefore : (generatedKeys C coins h).Nodup := by
      rw [List.map_append, List.nodup_append] at hnodup
      exact hnodup.1
    obtain ⟨keys, hkeys, hagree, hl⟩ := ih hbefore (hfree.mono hsub)
    obtain ⟨more, hkeys'⟩ := hkeys.serviceStep hnodup hstep
    exact ⟨keys ++ more, hkeys', hagree.step hkeys'.publishes hstep,
      (hl.step hkeys hagree (hfree.mono hsub) hstep).mono more⟩

/--
**Every token is granted at most once.** In every run of an honest issuer with different keys, one
in-memory redeemer and any number of origins, with any delays and losses and any other calls of
`/redeem`, no two answers 200 are for the same `token_key_id` and nonce.
-/
theorem granted_once {s₀ : IssuerProc cfg} {coins : List UInt8} {now : UInt64}
    {limiter : cfg.limiter.State} (hstart : IssuerProc.start cfg coins now limiter = .ok s₀)
    {h : ServiceHistory} {s : Services cfg} (ht : Trace Services.step (.start s₀) h s)
    (hdistinct : (generatedKeys C coins h).Nodup)
    (hfree : C.CollisionFree { m | m ∈ generatedKeys C coins h }) : (grants h).Nodup := by
  obtain ⟨_, _, _, hl⟩ := ledger_trace hstart ht hdistinct hfree
  exact hl.nodup

/-! ## A run with a grant -/

/-- The services when the origin has issued the challenge. -/
def sampleServices : Services (sampleConfig []) where
  issuer := sampleIssuer []
  served := [(.keys, .keys sampleIssuerKey)]
  origins := Function.update (fun _ => none) 0 (some (sampleOrigin, sampleOriginState))
  redeemer := .new
  answers _ := none

/-- What happened until then. -/
def sampleServicesHistory : ServiceHistory :=
  [(.issuer .keys, .issuer (.keys sampleIssuerKey)),
    (.startOrigin 0 sampleOrigin sampleIssuerKey, .started),
    (.origin 0 (.request 0 none (some sampleContext)),
      .origin (.challenge (wwwAuthenticate sampleChallenge.toBytes sampleIssuerKey)))]

theorem sampleServices_origins :
    sampleServices.origins 0 = some (sampleOrigin, sampleOriginState) := by
  simp only [sampleServices, Function.update_self]

/-- An issuer that reads other authorizations takes the same steps. -/
theorem sampleServices_trace (known : List IssuanceAuthorization) :
    Trace Services.step (.start (sampleIssuer known)) sampleServicesHistory
      { issuer := sampleIssuer known
        served := sampleServices.served
        origins := sampleServices.origins
        redeemer := sampleServices.redeemer
        answers := sampleServices.answers } := by
  let o := OriginState.start Crypto.sample sampleIssuerKey
  let s₁ : Services (sampleConfig known) :=
    { Services.start (sampleIssuer known) with served := [(.keys, .keys sampleIssuerKey)] }
  let s₂ : Services (sampleConfig known) :=
    { s₁ with origins := Function.update s₁.origins 0 (some (sampleOrigin, o)) }
  have hkeys : (Services.start (sampleIssuer known)).step (.issuer .keys)
      = some (s₁, .issuer (.keys sampleIssuerKey)) := rfl
  have hstart : s₁.step (.startOrigin 0 sampleOrigin sampleIssuerKey) = some (s₂, .started) :=
    Services.step_startOrigin rfl (List.mem_singleton_self _) sampleOrigin
  have hchallenge := Services.step_origin (s := s₂) (Function.update_self ..) rfl
    sampleOriginState_issued
  have ht := Trace.snoc (.snoc (.snoc .init hkeys) hstart) hchallenge
  simp only [s₂, Function.update_idem] at ht
  exact ht

/-- A request with a token is granted, and no other. -/
theorem granted_once_sample :
    ∃ h s, Trace Services.step (Services.start (sampleIssuer [])) h s ∧
      grants h = [sampleToken.id] ∧ (grants h).Nodup := by
  have hpresent : ∃ s, Trace Services.step sampleServices
      (Services.presentation 0 1 (authorization sampleToken) none sampleToken 1) s :=
    Services.presentation_trace sampleServices_origins rfl rfl sampleToken_parsed
      sampleOriginState_keys sampleToken_checked (Finset.notMem_empty _) none
  obtain ⟨s, hpresent⟩ := hpresent
  have ht := Trace.append_iff.mpr ⟨_, sampleServices_trace [], hpresent⟩
  refine ⟨_, s, ht, rfl, granted_once (sampleIssuer_start []) ht (by decide) ?_⟩
  intro a ha b hb _
  rw [List.mem_singleton.mp ha, List.mem_singleton.mp hb]

end EatPass
