import EatPass.Properties.SharedHelper

/-!
# Two SDKs

The Windows SDK and the Python SDK mint against the same answers.

* `directMint_ok` — a direct mint that ends well returns what the Python SDK returns
* `windows_mint_agrees` — so does a mint of a Windows process, over the shared helper
-/

namespace EatPass

open Infra

variable {C : Crypto} {equalsIgnoreCase : String → String → Bool}

/-! ## A direct mint that ends well -/

/-- A mint that ends well was answered. -/
theorem says_askService_ok {q : ServiceQuestion} {f : q.Value → DirectTalk MintResult}
    {l : DirectLog} {r : MintResult}
    (h : Talk.Says (askService q >>= f) l (.done (.ok r))) :
    ∃ v l', l = ⟨.inl q, .ok v⟩ :: l' ∧ Talk.Says (f v) l' (.done (.ok r)) := by
  change Talk.Says (Talk.ask (.inl q) fun a => Talk.lift (Outcome.ofExcept id a) >>= f) l _ at h
  cases h with
  | @cons _ _ a l' _ h =>
    obtain ⟨v, hv, h⟩ := Talk.says_lift_bind h
    obtain rfl : a = .ok v := Outcome.ofExcept_eq_ok.mp hv
    exact ⟨v, l', rfl, h⟩

/-- What a mint was answered is what the services and the collector answer. -/
structure HeardFrom (services : MintServices)
    (collectBundleJson : String → Except MintFailure String)
    (l : Talk.Log ServiceQuestion ServiceQuestion.Answer) : Prop where
  keys : ∀ v, ⟨.keys, .ok v⟩ ∈ l → services.keys = .ok v
  collect : ∀ binding v, ⟨.collect binding, .ok v⟩ ∈ l → collectBundleJson binding = .ok v
  authorize : ∀ body v, ⟨.authorize body, .ok v⟩ ∈ l → services.authorize body = .ok (.ok ⟨v⟩)
  sign : ∀ body v, ⟨.sign body, .ok v⟩ ∈ l → services.sign body = .ok v

theorem HeardFrom.tail {services : MintServices}
    {collectBundleJson : String → Except MintFailure String}
    {x : (q : ServiceQuestion) × q.Answer} {l : Talk.Log ServiceQuestion ServiceQuestion.Answer}
    (h : HeardFrom services collectBundleJson (x :: l)) :
    HeardFrom services collectBundleJson l where
  keys v hv := h.keys v (List.mem_cons_of_mem _ hv)
  collect b v hv := h.collect b v (List.mem_cons_of_mem _ hv)
  authorize b v hv := h.authorize b v (List.mem_cons_of_mem _ hv)
  sign b v hv := h.sign b v (List.mem_cons_of_mem _ hv)

theorem says_fetchKeys_ok {config : EatPassConfig}
    {f : Except String IssuerPublicKey → DirectTalk MintResult} {l : DirectLog} {r : MintResult}
    {services : MintServices} {collectBundleJson : String → Except MintFailure String}
    (h : Talk.Says (fetchKeys equalsIgnoreCase config >>= f) l (.done (.ok r)))
    (hheard : HeardFrom services collectBundleJson (outside l)) :
    ∃ keysJson l', services.keys = .ok keysJson ∧ Talk.Says (f keysJson) l' (.done (.ok r)) ∧
      HeardFrom services collectBundleJson (outside l') := by
  simp only [fetchKeys, Talk.bind_assoc] at h
  obtain ⟨keysJson, l', rfl, hrest⟩ := says_askService_ok h
  rw [outside_cons_inl] at hheard
  have hkeys : services.keys = .ok keysJson := hheard.keys keysJson List.mem_cons_self
  cases hpin : config.ktLogPubHex with
  | none =>
    rw [hpin] at hrest
    exact ⟨keysJson, l', hkeys, hrest, hheard.tail⟩
  | some pin =>
    rw [hpin] at hrest
    simp only [Talk.bind_assoc] at hrest
    obtain ⟨served, l'', rfl, hchecked⟩ := says_askService_ok hrest
    obtain ⟨_, -, hend⟩ := Talk.says_lift_bind hchecked
    exact ⟨keysJson, l'', hkeys, hend, hheard.tail.tail⟩

/-- **A direct mint returns what the Python SDK returns**, against the same answers and where that
does not stop at its own check of the pin. -/
theorem directMint_ok {config : EatPassConfig} {coins : Coins} {l : DirectLog} {r : MintResult}
    {services : MintServices} {collectBundleJson : String → Except MintFailure String}
    {str : PythonStr}
    (h : Talk.Says (directMint C equalsIgnoreCase config coins) l (.done (.ok r)))
    (hheard : HeardFrom services collectBundleJson (outside l))
    (hpin : checkKtPin str config.ktLogPubHex services.kt = .ok ()) :
    mintAuthorizationHeader C str config services collectBundleJson coins = .ok r := by
  rw [directMint_eq] at h
  obtain ⟨keysJson, l₁, hkeys, hafterKeys, hheard⟩ := says_fetchKeys_ok h hheard
  obtain ⟨client, hclient, hmint⟩ := Talk.says_lift_bind hafterKeys
  simp only [directMintWith, askForSignatures, Talk.bind_assoc] at hmint
  obtain ⟨bundleJson, l₂, rfl, hcollected⟩ := says_askService_ok hmint
  obtain ⟨authorizationB64, l₃, rfl, hauthorized⟩ := says_askService_ok hcollected
  obtain ⟨signJson, l₄, rfl, hsigned⟩ := says_askService_ok hauthorized
  obtain ⟨headers, hheaders, hend⟩ := Talk.says_lift_bind hsigned
  simp only [outside_cons_inl] at hheard
  have hbundle := hheard.collect _ _ List.mem_cons_self
  have hauth := hheard.tail.authorize _ _ List.mem_cons_self
  have hsign := hheard.tail.tail.sign _ _ List.mem_cons_self
  have hmade : mintClient C str config services.keys services.kt = .ok client := by
    simp only [mintClient, hkeys, hpin, Outcome.ofExcept_ok, Outcome.ok_bind,
      Outcome.mapErr_eq_ok.mp hclient, Outcome.mapErr_ok]
  unfold mintAuthorizationHeader
  simp only [hmade, Outcome.ok_bind, hbundle, Outcome.ofExcept_ok, hauth, hsign,
    Outcome.mapErr_eq_ok.mp hheaders, Outcome.mapErr_ok]
  cases headers with
  | nil => cases hend
  | cons header rest =>
    cases hend
    rfl

/-! ## A mint over the helper -/

/-- The helper has begun a batch. -/
def BatchBegun : (q : ServiceQuestion ⊕ FfiLine) →
    Sum.elim ServiceQuestion.Answer (fun _ => RpcAnswer) q → Prop
  | .inl _, _ => False
  | .inr _, r => ∃ b, r = .ok (.ok (.begun b))

theorem nativeBegin_needs (id : UInt64) (count : UInt32) :
    (nativeBegin id count).Needs BatchBegun := by
  refine .ask fun r => ?_
  cases r with
  | error e => exact .inr (.err _)
  | ok root =>
    cases root with
    | error message => exact .inr (.err _)
    | ok result =>
      cases result with
      | begun b => exact .inl ⟨b, rfl⟩
      | _ => exact .inr (.err _)

/-- **A mint ends well only with a batch that the helper has begun.** -/
theorem mint_needs (config : EatPassConfig) :
    (mintAuthorizationHeaderAsync equalsIgnoreCase config).Needs BatchBegun :=
  .bind_right fun _ => .bind_right fun id =>
    .andFinally (.bind_left (nativeBegin_needs id 1) (mintBegun id)) (nativeDispose id)

/-- For a batch that was begun, values were drawn. -/
theorem drawn_isSome {said : WindowsLog} {chances : List RpcChance}
    (hlen : (inside said).length = chances.length)
    (hbegun : ∃ x ∈ said, BatchBegun x.1 x.2) : ∃ c, drawn said chances = some c := by
  obtain ⟨⟨q, r⟩, hmem, hb⟩ := hbegun
  cases q with
  | inl q => exact hb.elim
  | inr line =>
    obtain ⟨b, rfl⟩ := hb
    have hinside : ⟨line, .ok (.ok (.begun b))⟩ ∈ inside said :=
      List.mem_filterMap.mpr ⟨_, hmem, rfl⟩
    rw [← List.map_fst_zip hlen.le] at hinside
    obtain ⟨⟨x, chance⟩, hzip, rfl⟩ := List.mem_map.mp hinside
    exact Option.isSome_iff_exists.mp (List.findSome?_isSome_iff.mpr ⟨_, hzip, rfl⟩)

/-- The answers of the two mints are those of the services with one key. -/
theorem heardFrom_sampleAnswers {l : Talk.Log ServiceQuestion ServiceQuestion.Answer}
    (h : ∀ y ∈ l, y.2 = sampleAnswers (Issuer.generate Crypto.sample [1] 1) y.1) :
    HeardFrom oneKeyServices (fun _ => .ok "{}") l where
  keys v hv := by
    cases h _ hv
    rfl
  collect b v hv := by
    cases h _ hv
    rfl
  authorize b v hv := by
    cases h _ hv
    rfl
  sign b v hv := by
    cases h _ hv
    rfl

/--
**The Windows SDK returns what the Python SDK returns.** If a mint of a Windows process has ended
well, then so does the Python SDK, with the same header, for the values the helper drew for the
mint's batch: against the answers the mint has heard, and where it does not stop at its own check of
the pin.
-/
theorem windows_mint_agrees {h : List (WindowsEvent C × Unit)} {s : WindowsProcess C}
    (ht : Trace (WindowsProcess.step C equalsIgnoreCase) (.start C) h s)
    (hlines : linesOf h ≤ 2 ^ 64) {i : Nat} {m : WindowsMint} (hm : s.members i = some m)
    {result : MintResult} (hresult : m.rest = .done (.ok result)) {services : MintServices}
    {collectBundleJson : String → Except MintFailure String}
    (hheard : HeardFrom services collectBundleJson (outside m.said)) {str : PythonStr}
    (hpin : checkKtPin str m.args.ktLogPubHex services.kt = .ok ()) :
    ∃ coins, drawn m.said (lineChances i h) = some coins ∧
      mintAuthorizationHeader C str m.args services collectBundleJson coins = .ok result := by
  have hsays := Crowd.member_speaks ht hm
  rw [hresult] at hsays
  have hlen : (inside m.said).length = (lineChances i h).length := by
    have hcalls := Crowd.length_calls ht i
    rwa [Crowd.calls, hm] at hcalls
  obtain ⟨c, hc⟩ := drawn_isSome hlen (mint_needs m.args _ _ hsays)
  obtain ⟨owners, -, -, hstand⟩ := process_inv ht hlines
  obtain ⟨coins, l, t', hcoins, hsaid, hl, hend⟩ := (hstand i m hm).direct
  rcases hend _ hresult with rfl | ⟨-, e, he⟩
  · obtain rfl := hcoins c hc
    exact ⟨coins, hc, directMint_ok hsaid (hl ▸ hheard) hpin⟩
  · cases he

theorem windows_mint_agrees_twoMints :
    ∃ (s : WindowsProcess Crypto.sample) (h : List (WindowsEvent Crypto.sample × Unit))
      (m : WindowsMint) (result : MintResult),
      Trace (WindowsProcess.step Crypto.sample fun _ _ => true) (.start Crypto.sample) h s ∧
      s.members 1 = some m ∧ m.rest = .done (.ok result) ∧
      mintAuthorizationHeader Crypto.sample asciiStr m.args oneKeyServices (fun _ => .ok "{}")
        (sampleChance.random 0) = .ok result := by
  obtain ⟨s, h, m, r, f, hexec, hlines, hm, hr, ⟨hargs, hheard⟩, -, -, -, hdrawn⟩ := twoMints_run
  have ht := Trace.of_exec hexec
  have hpin : checkKtPin asciiStr m.args.ktLogPubHex oneKeyServices.kt = .ok () := by
    rw [hargs]
    rfl
  obtain ⟨coins, hcoins, hmint⟩ :=
    windows_mint_agrees ht hlines hm hr (heardFrom_sampleAnswers hheard) hpin
  obtain rfl := Option.some.inj (hdrawn.symm.trans hcoins)
  exact ⟨s, h, m, r, ht, hm, hr, hmint⟩

end EatPass
