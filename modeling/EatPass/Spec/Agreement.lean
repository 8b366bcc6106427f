import EatPass.Spec.Published
import EatPass.Cli.Services

/-!
# Origins agree with the published keys

Every origin finds out about keys by itself, from the answer of `/keys` at its start or from the
log. With an honest issuer, whatever it knows is what the issuer has published: an entry is for a
published key, and its epoch is the version of that key.

* `OriginAgrees.step`, `ServicesAgree.step` — a step keeps the agreement
* `servicesAgree_trace` — after every run there is agreement
* `issuer_trace`, `originRuns_trace` — what the issuer and an origin do in a run is a run of theirs
-/

namespace EatPass

open Infra

variable {C : Crypto} {cfg : IssuerConfig C}

/-! ## What origins know -/

/-- An entry is for a published key, with its version as the epoch. -/
def Agrees (keys : Published) (entry : KeyEntry) : Prop :=
  ∃ key ∈ keys, entry = ⟨⟨key.1.public⟩, key.1.keyVersion⟩

/-- The cache and the requests of an origin agree with the published keys. -/
structure OriginAgrees (C : Crypto) (keys : Published) (o : OriginState) : Prop where
  cached : ∀ id entry, o.keys id = some entry →
    Agrees keys entry ∧ entry.verifier.pk.tokenKeyId C = id
  keyed : ∀ task token entry, o.tasks task = some (.keyed token entry) → Agrees keys entry
  redeeming : ∀ task token body, o.tasks task = some (.redeeming token body) →
    ∃ key ∈ keys, token.tokenKeyId = key.1.public.tokenKeyId C ∧
      body = spendBody key.1.keyVersion token.nonce

theorem Agrees.mono {keys : Published} {entry : KeyEntry} (h : Agrees keys entry)
    (more : Published) : Agrees (keys ++ more) entry := by
  obtain ⟨key, hkey, heq⟩ := h
  exact ⟨key, List.mem_append_left _ hkey, heq⟩

theorem OriginAgrees.mono {keys : Published} {o : OriginState} (h : OriginAgrees C keys o)
    (more : Published) : OriginAgrees C (keys ++ more) o where
  cached := fun id entry hentry =>
    ⟨(h.cached id entry hentry).1.mono more, (h.cached id entry hentry).2⟩
  keyed := fun task token entry ht => (h.keyed task token entry ht).mono more
  redeeming := fun task token body ht => by
    obtain ⟨key, hkey, heq⟩ := h.redeeming task token body ht
    exact ⟨key, List.mem_append_left _ hkey, heq⟩

theorem OriginAgrees.start {keys : Published} {key : Issuer × UInt64} (hkey : key ∈ keys) :
    OriginAgrees C keys (.start C key.1.public) where
  cached := by
    intro id entry hentry
    obtain ⟨rfl, rfl⟩ := (OriginState.start_keys_eq_some C).mp hentry
    exact ⟨⟨key, hkey, rfl⟩, rfl⟩
  keyed := by
    intro task token entry ht
    cases ht
  redeeming := by
    intro task token body ht
    cases ht

/-- A step that moves one request. -/
theorem OriginAgrees.keep {keys : Published} {o o' : OriginState} {task : Nat}
    {t : Option ResourceTask} (h : OriginAgrees C keys o) (hkeys : o'.keys = o.keys)
    (htasks : o'.tasks = Function.update o.tasks task t)
    (hkeyed : ∀ token entry, t = some (.keyed token entry) → Agrees keys entry)
    (hredeeming : ∀ token body, t = some (.redeeming token body) →
      ∃ key ∈ keys, token.tokenKeyId = key.1.public.tokenKeyId C ∧
        body = spendBody key.1.keyVersion token.nonce) : OriginAgrees C keys o' := by
  refine ⟨hkeys ▸ h.cached, ?_, ?_⟩
  · intro task' token entry ht
    rw [htasks, Function.update_apply] at ht
    split at ht
    · exact hkeyed token entry ht
    · exact h.keyed task' token entry ht
  · intro task' token body ht
    rw [htasks, Function.update_apply] at ht
    split at ht
    · exact hredeeming token body ht
    · exact h.redeeming task' token body ht

/-- **An origin keeps agreeing**, if the keys it is served are published ones. -/
theorem OriginAgrees.step {keys : Published} {ocfg : OriginConfig} {o o' : OriginState}
    {e : OriginEvent} {r : OriginReply} (h : OriginAgrees C keys o)
    (hserved : ∀ task pk, e = .keyAnswer task (some pk) → ∃ key ∈ keys, pk = key.1.public)
    (hstep : o.step C ocfg e = some (o', r)) : OriginAgrees C keys o' := by
  cases OriginState.step_cases hstep with
  | answered task header ctx event keys' tasks reply =>
    exact ⟨keys' ▸ h.cached, tasks ▸ h.keyed, tasks ▸ h.redeeming⟩
  | cached task header ctx token entry event free hit keys' tasks reply =>
    refine h.keep keys' tasks ?_ (by simp)
    rintro token' entry' ht
    cases ht
    exact (h.cached _ _ hit).1
  | missed task header ctx token event free keys' tasks reply =>
    exact h.keep keys' tasks (by simp) (by simp)
  | logged task token kt rec event at_ lookup keys' tasks reply =>
    exact h.keep keys' tasks (by simp) (by simp)
  | resolved task token version pk entry event at_ accept keys' tasks reply =>
    obtain ⟨key, hkey, rfl⟩ := hserved task pk event
    obtain ⟨hid, rfl⟩ := acceptKey_ok accept
    have hagrees : Agrees keys ⟨⟨key.1.public⟩, key.1.public.keyVersion⟩ := ⟨key, hkey, rfl⟩
    have hrest : OriginAgrees C keys { o' with keys := o.keys } := by
      refine h.keep rfl tasks ?_ (by simp)
      rintro token' entry' ht
      cases ht
      exact hagrees
    refine ⟨?_, hrest.keyed, hrest.redeeming⟩
    intro id entry hentry
    rw [keys', Function.update_apply] at hentry
    split at hentry
    · next heq =>
      cases hentry
      exact ⟨hagrees, hid.trans heq.symm⟩
    · exact h.cached id entry hentry
  | checked task token entry nonce event at_ check keys' tasks reply =>
    refine h.keep keys' tasks (by simp) ?_
    rintro token' body ht
    cases ht
    obtain ⟨key, hkey, rfl⟩ := h.keyed task token entry at_
    obtain ⟨htkid, rfl⟩ := checkToken_ok check
    exact ⟨key, hkey, htkid, rfl⟩
  | granted task token body event at_ keys' tasks reply =>
    exact h.keep keys' tasks (by simp) (by simp)
  | refused task answer event keys' tasks reply => exact h.keep keys' tasks (by simp) (by simp)
  | dropped task event at_ keys' tasks reply => exact h.keep keys' tasks (by simp) (by simp)

/-! ## All services -/

/-- What was served is published, and every origin agrees with what is published. -/
structure ServicesAgree (s : Services cfg) (keys : Published) : Prop where
  publishes : s.issuer.rot.Publishes cfg keys
  current : ∀ e pk, (e, IssuerReply.keys pk) ∈ s.served → ∃ key ∈ keys, pk = key.1.public
  versions : ∀ e pk, (e, IssuerReply.keysVersion (.ok pk)) ∈ s.served →
    ∃ key ∈ keys, pk = key.1.public
  origins : ∀ i ocfg o, s.origins i = some (ocfg, o) → OriginAgrees C keys o

/-- A step of another service than the issuer. -/
theorem ServicesAgree.keep {s s' : Services cfg} {keys more : Published}
    (h : ServicesAgree s keys) (hpub : s'.issuer.rot.Publishes cfg (keys ++ more))
    (hserved : s'.served = s.served)
    (horigins : ∀ i ocfg o, s'.origins i = some (ocfg, o) → OriginAgrees C keys o) :
    ServicesAgree s' (keys ++ more) := by
  refine ⟨hpub, ?_, ?_, fun i ocfg o ho => (horigins i ocfg o ho).mono more⟩
  · intro e pk hmem
    obtain ⟨key, hkey, hpk⟩ := h.current e pk (hserved ▸ hmem)
    exact ⟨key, List.mem_append_left _ hkey, hpk⟩
  · intro e pk hmem
    obtain ⟨key, hkey, hpk⟩ := h.versions e pk (hserved ▸ hmem)
    exact ⟨key, List.mem_append_left _ hkey, hpk⟩

/-- A step of the issuer: the new answer is for a key that was published before. -/
theorem ServicesAgree.issuerStep {s s' : Services cfg} {keys more : Published} {e : IssuerEvent}
    {r : IssuerReply} (h : ServicesAgree s keys)
    (hpub : s'.issuer.rot.Publishes cfg (keys ++ more))
    (hstep : s.issuer.step e = some (s'.issuer, r))
    (hserved : s'.served = s.served ++ [(e, r)]) (horigins : s'.origins = s.origins) :
    ServicesAgree s' (keys ++ more) := by
  refine ⟨hpub, ?_, ?_, fun i ocfg o ho => (h.origins i ocfg o (horigins ▸ ho)).mono more⟩
  · intro e' pk hmem
    rw [hserved, List.mem_append] at hmem
    rcases hmem with hmem | hlast
    · obtain ⟨key, hkey, hpk⟩ := h.current e' pk hmem
      exact ⟨key, List.mem_append_left _ hkey, hpk⟩
    · cases List.mem_singleton.mp hlast
      obtain ⟨rfl, -⟩ := IssuerProc.step_keys hstep
      obtain ⟨now, hcur⟩ := h.publishes.current_mem
      exact ⟨_, List.mem_append_left _ hcur, rfl⟩
  · intro e' pk hmem
    rw [hserved, List.mem_append] at hmem
    rcases hmem with hmem | hlast
    · obtain ⟨key, hkey, hpk⟩ := h.versions e' pk hmem
      exact ⟨key, List.mem_append_left _ hkey, hpk⟩
    · cases List.mem_singleton.mp hlast
      obtain ⟨version, -, hhist⟩ := IssuerProc.step_keysVersion hstep
      rw [h.publishes.history] at hhist
      obtain ⟨key, hkey, hpk, -⟩ := Published.exists_of_latest hhist
      exact ⟨key, List.mem_append_left _ hkey, hpk.symm⟩

/-- The key that is delivered to a request was served by the issuer. -/
theorem Services.keyAnswer_served {s : Services cfg} {i task : Nat} {o : OriginState}
    {pk : IssuerPublicKey} (h : s.delivers i o (.keyAnswer task (some pk)) = true) :
    ∃ e, (e, IssuerReply.keysVersion (.ok pk)) ∈ s.served := by
  simp only [Services.delivers] at h
  split at h
  · exact ⟨_, of_decide_eq_true h⟩
  · cases h

/-- **A step keeps the agreement**, with the keys that are published after it. -/
theorem ServicesAgree.step {s s' : Services cfg} {keys more : Published} {e : ServiceEvent}
    {r : ServiceReply} (h : ServicesAgree s keys)
    (hpub : s'.issuer.rot.Publishes cfg (keys ++ more)) (hstep : s.step e = some (s', r)) :
    ServicesAgree s' (keys ++ more) := by
  cases Services.step_cases hstep with
  | issuer ie ir event reply step served origins redeemer answers =>
    exact h.issuerStep hpub step served origins
  | startOrigin i ocfg pk event reply free mem issuer served origins redeemer answers =>
    refine h.keep hpub served fun i' ocfg' o' ho => ?_
    rw [origins, Function.update_apply] at ho
    split at ho
    · cases ho
      obtain ⟨key, hkey, rfl⟩ := h.current _ pk mem
      exact OriginAgrees.start hkey
    · exact h.origins i' ocfg' o' ho
  | origin i ocfg o o' oe or event reply running honest step issuer served origins redeemer
      answers =>
    refine h.keep hpub served fun i' ocfg' o'' ho => ?_
    rw [origins, Function.update_apply] at ho
    split at ho
    · cases ho
      refine (h.origins i ocfg o running).step ?_ step
      rintro task pk rfl
      obtain ⟨e, he⟩ := Services.keyAnswer_served honest
      exact h.versions e pk he
    · exact h.origins i' ocfg' o'' ho
  | redeem i task body sent ocfg o token event running at_ unanswered same reply issuer served
      origins redeemer answers =>
    exact h.keep hpub served (origins ▸ h.origins)
  | strangeRedeem body event reply issuer served origins redeemer answers =>
    exact h.keep hpub served (origins ▸ h.origins)

/-- The services when the issuer starts. -/
theorem ServicesAgree.start {s₀ : IssuerProc cfg} {keys : Published}
    (hpub : s₀.rot.Publishes cfg keys) : ServicesAgree (.start s₀) keys := by
  refine ⟨hpub, ?_, ?_, ?_⟩
  · intro e pk hmem
    exact absurd hmem List.not_mem_nil
  · intro e pk hmem
    exact absurd hmem List.not_mem_nil
  · intro i ocfg o ho
    cases ho

/-! ## The issuer's part of a run -/

abbrev ServiceHistory := List (ServiceEvent × ServiceReply)

/-- The step of the issuer, if it is one. -/
def issuerPart : ServiceEvent × ServiceReply → Option (IssuerEvent × IssuerReply)
  | (.issuer e, .issuer r) => some (e, r)
  | _ => none

/-- The run of the issuer within a run of the services. -/
def issuerHistory (h : ServiceHistory) : List (IssuerEvent × IssuerReply) :=
  h.filterMap issuerPart

theorem issuerHistory_append (h₁ h₂ : ServiceHistory) :
    issuerHistory (h₁ ++ h₂) = issuerHistory h₁ ++ issuerHistory h₂ :=
  List.filterMap_append

/-- **The issuer runs by itself**: its steps within a run of the services are a run. -/
theorem issuer_trace {s₀ s : Services cfg} {h : ServiceHistory}
    (ht : Trace Services.step s₀ h s) :
    Trace IssuerProc.step s₀.issuer (issuerHistory h) s.issuer := by
  induction ht with
  | init => exact .init
  | @snoc h s s' e r _ hstep ih =>
    rw [issuerHistory_append]
    have hquiet : issuerPart (e, r) = none → s'.issuer = s.issuer →
        Trace IssuerProc.step s₀.issuer (issuerHistory h ++ issuerHistory [(e, r)]) s'.issuer := by
      intro hnone hissuer
      have hlast : issuerHistory [(e, r)] = [] := by simp [issuerHistory, hnone]
      rw [hlast, List.append_nil, hissuer]
      exact ih
    cases Services.step_cases hstep with
    | issuer ie ir event reply step served origins redeemer answers =>
      subst event reply
      exact .snoc ih step
    | startOrigin i ocfg pk event reply free mem issuer served origins redeemer answers =>
      exact hquiet (by rw [event]; rfl) issuer
    | origin i ocfg o o' oe or event reply running honest step issuer served origins redeemer
        answers =>
      exact hquiet (by rw [event]; rfl) issuer
    | redeem i task body sent ocfg o token event running at_ unanswered same reply issuer served
        origins redeemer answers =>
      exact hquiet (by rw [event]; rfl) issuer
    | strangeRedeem body event reply issuer served origins redeemer answers =>
      exact hquiet (by rw [event]; rfl) issuer

/-! ## An origin's part of a run -/

/-- The step of the origin `i`, if it is one. -/
def originPart (i : Nat) : ServiceEvent × ServiceReply → Option (OriginEvent × OriginReply)
  | (.origin j e, .origin r) => if j = i then some (e, r) else none
  | _ => none

/-- The run of an origin within a run of the services. -/
def originHistory (i : Nat) (h : ServiceHistory) : List (OriginEvent × OriginReply) :=
  h.filterMap (originPart i)

theorem originHistory_append (i : Nat) (h₁ h₂ : ServiceHistory) :
    originHistory i (h₁ ++ h₂) = originHistory i h₁ ++ originHistory i h₂ :=
  List.filterMap_append

theorem originHistory_snoc_of_none {i : Nat} {x : ServiceEvent × ServiceReply}
    (hx : originPart i x = none) (h : ServiceHistory) :
    originHistory i (h ++ [x]) = originHistory i h := by
  rw [originHistory_append]
  simp [originHistory, hx]

/-- What is known of an origin: it has done nothing, or it has been started and runs by itself. -/
def OriginRuns (C : Crypto) (i : Nat) (h : ServiceHistory) :
    Option (OriginConfig × OriginState) → Prop
  | none => originHistory i h = []
  | some (ocfg, o) =>
    ∃ pk, Trace (OriginState.step C ocfg) (.start C pk) (originHistory i h) o

/-- **Every origin runs by itself**: its steps within a run of the services are a run. -/
theorem originRuns_trace {s₀ : IssuerProc cfg} {s : Services cfg} {h : ServiceHistory}
    (ht : Trace Services.step (.start s₀) h s) (i : Nat) : OriginRuns C i h (s.origins i) := by
  induction ht with
  | init => rfl
  | @snoc h s s' e r _ hstep ih =>
    have hquiet : originPart i (e, r) = none → s'.origins i = s.origins i →
        OriginRuns C i (h ++ [(e, r)]) (s'.origins i) := by
      intro hnone hsame
      unfold OriginRuns at ih ⊢
      rw [hsame, originHistory_snoc_of_none hnone]
      exact ih
    cases Services.step_cases hstep with
    | issuer ie ir event reply step served origins redeemer answers =>
      exact hquiet (by rw [event]; rfl) (by rw [origins])
    | startOrigin j ocfg pk event reply free mem issuer served origins redeemer answers =>
      subst event
      by_cases hij : i = j
      · subst hij
        rw [free] at ih
        rw [origins, Function.update_self]
        refine ⟨pk, ?_⟩
        rw [originHistory_snoc_of_none (by rfl), show originHistory i h = [] from ih]
        exact .init
      · exact hquiet rfl (by rw [origins, Function.update_of_ne hij])
    | origin j ocfg o o' oe or event reply running honest step issuer served origins redeemer
        answers =>
      subst event reply
      by_cases hij : i = j
      · subst hij
        rw [running] at ih
        rw [origins, Function.update_self]
        obtain ⟨pk, htrace⟩ := ih
        refine ⟨pk, ?_⟩
        have hlast : originHistory i [(.origin i oe, .origin or)] = [(oe, or)] := by
          simp [originHistory, originPart]
        rw [originHistory_append, hlast]
        exact .snoc htrace step
      · exact hquiet (by simp [originPart, Ne.symm hij])
          (by rw [origins, Function.update_of_ne hij])
    | redeem j task body sent ocfg o token event running at_ unanswered same reply issuer served
        origins redeemer answers =>
      exact hquiet (by rw [event]; rfl) (by rw [origins])
    | strangeRedeem body event reply issuer served origins redeemer answers =>
      exact hquiet (by rw [event]; rfl) (by rw [origins])

/-- The configuration of an origin stays what it was started with. -/
theorem Services.config_trace {s s' : Services cfg} {h : ServiceHistory}
    (ht : Trace Services.step s h s') {i : Nat} {ocfg : OriginConfig} {o : OriginState}
    (hrunning : s.origins i = some (ocfg, o)) : ∃ o', s'.origins i = some (ocfg, o') := by
  induction ht with
  | init => exact ⟨o, hrunning⟩
  | snoc _ hstep ih =>
    obtain ⟨o₁, ho₁⟩ := ih
    cases Services.step_cases hstep with
    | issuer ie ir event reply step served origins redeemer answers =>
      exact ⟨o₁, by rw [origins, ho₁]⟩
    | startOrigin j ocfg' pk event reply free mem issuer served origins redeemer answers =>
      have hij : i ≠ j := by
        rintro rfl
        rw [free] at ho₁
        cases ho₁
      exact ⟨o₁, by rw [origins, Function.update_of_ne hij, ho₁]⟩
    | origin j ocfg' o₂ o' oe or event reply running honest step issuer served origins redeemer
        answers =>
      by_cases hij : i = j
      · subst hij
        rw [running] at ho₁
        cases ho₁
        exact ⟨o', by rw [origins, Function.update_self]⟩
      · exact ⟨o₁, by rw [origins, Function.update_of_ne hij, ho₁]⟩
    | redeem j task body sent ocfg' o₂ token event running at_ unanswered same reply issuer served
        origins redeemer answers =>
      exact ⟨o₁, by rw [origins, ho₁]⟩
    | strangeRedeem body event reply issuer served origins redeemer answers =>
      exact ⟨o₁, by rw [origins, ho₁]⟩

/-- **Agreement after a run**, with keys that only grow. -/
theorem servicesAgree_trace {s₀ s : Services cfg} {h : ServiceHistory} {keys : Published}
    (hagree : ServicesAgree s₀ keys) (ht : Trace Services.step s₀ h s) :
    ∃ more, ServicesAgree s (keys ++ more) := by
  induction ht with
  | init => exact ⟨[], by rw [List.append_nil]; exact hagree⟩
  | @snoc h s s' e r _ hstep ih =>
    obtain ⟨more, hmore⟩ := ih
    obtain ⟨more', hpub⟩ := IssuerProc.publishes_of_trace hmore.publishes
      (issuer_trace (.snoc .init hstep))
    refine ⟨more ++ more', ?_⟩
    rw [← List.append_assoc]
    exact hmore.step hpub hstep

/-! ## Steps of the issuer alone -/

/-- A run of the issuer as a run of the services. -/
def asServices (k : List (IssuerEvent × IssuerReply)) : ServiceHistory :=
  k.map fun x => (.issuer x.1, .issuer x.2)

@[simp] theorem issuerHistory_asServices (k : List (IssuerEvent × IssuerReply)) :
    issuerHistory (asServices k) = k := by
  induction k with
  | nil => rfl
  | cons x rest ih =>
    show x :: issuerHistory (asServices rest) = x :: rest
    rw [ih]

@[simp] theorem originHistory_asServices (i : Nat) (k : List (IssuerEvent × IssuerReply)) :
    originHistory i (asServices k) = [] := by
  induction k with
  | nil => rfl
  | cons x rest ih => exact ih

/-- What the issuer does by itself changes nothing else. -/
theorem trace_asServices {s : Services cfg} {p : IssuerProc cfg}
    {k : List (IssuerEvent × IssuerReply)} (ht : Trace IssuerProc.step s.issuer k p) :
    Trace Services.step s (asServices k) { s with issuer := p, served := s.served ++ k } := by
  induction ht with
  | init =>
    rw [List.append_nil]
    exact .init
  | @snoc k p p' e r _ hstep ih =>
    have hlast : asServices (k ++ [(e, r)]) = asServices k ++ [(.issuer e, .issuer r)] :=
      List.map_append
    rw [hlast]
    refine .snoc ih ?_
    simp only [Services.step, hstep, Option.map_some, List.append_assoc]

end EatPass
