import EatPass.Properties.OriginKeys

/-!
# The epoch a token is spent in

The redeemer keeps one spent set for each epoch, so two origins refuse to grant one token twice
only if they send it with the same epoch. `resolve_via_kt` has two version numbers at hand: the one
of the log's record, which the log key has signed, and the one in the JSON of the served key, which
nothing commits to. The second is the epoch.

* `grantBoth_iff` — two epochs are two chances to spend
* `spendsOnce_iff` — two origins agree on the logged epoch exactly when both are served it
-/

namespace EatPass

open Infra

/-- The `key_version` of the log's record for the key. -/
def loggedVersion (kt : KtResponse) (tkid : Bytes 32) : Option UInt32 :=
  (findRecord kt.records tkid).map KeyRecord.keyVersion

/-- The `key_version` in the key that is served for that version. -/
def servedVersion (kt : KtResponse) (served : UInt32 → Option IssuerPublicKey)
    (tkid : Bytes 32) : Option UInt32 :=
  ((loggedVersion kt tkid).bind served).map IssuerPublicKey.keyVersion

/-- The redeemer after some calls. -/
def afterRedeems (spent : InMemorySpentStore) (bodies : List RedeemBody) : InMemorySpentStore :=
  bodies.foldl (fun spent body => (redeem inMemorySpentStore spent body).1) spent

/-- Some nonce can be spent in the first epoch and, whatever calls come in between, again in the
second. -/
def GrantBoth (first second : UInt32) : Prop :=
  ∃ (spent : InMemorySpentStore) (nonce : Bytes 32) (between : List RedeemBody),
    Reply.status (redeem inMemorySpentStore spent (spendBody first nonce)).2 = some .ok ∧
    Reply.status (redeem inMemorySpentStore
      (afterRedeems (redeem inMemorySpentStore spent (spendBody first nonce)).1 between)
      (spendBody second nonce)).2 = some .ok

/-- What two origins that have resolved one key promise: each spends in the epoch of the log it
has verified, and no token is granted by both. -/
structure SpendsOnce (kt₁ kt₂ : KtResponse) (tkid : Bytes 32) (entry₁ entry₂ : KeyEntry) :
    Prop where
  first : loggedVersion kt₁ tkid = some entry₁.epoch
  second : loggedVersion kt₂ tkid = some entry₂.epoch
  same : entry₁.epoch = entry₂.epoch
  once : ¬ GrantBoth entry₁.epoch entry₂.epoch

/-! ## The redeemer -/

theorem seen_afterRedeems (bodies : List RedeemBody) : ∀ spent : InMemorySpentStore,
    spent.seen ⊆ (afterRedeems spent bodies).seen := by
  induction bodies with
  | nil => intro spent; exact Finset.Subset.refl _
  | cons body rest ih =>
    intro spent
    exact (redeem_inMemory spent body).1.trans (ih _)

/-- **Two different epochs are two chances to spend a nonce, and one epoch is one.** -/
theorem grantBoth_iff {first second : UInt32} : GrantBoth first second ↔ first ≠ second := by
  constructor
  · rintro ⟨spent, nonce, between, h₁, h₂⟩ rfl
    obtain ⟨n₁, hn₁, -, hmem⟩ := (redeem_inMemory spent (spendBody first nonce)).2 h₁
    obtain ⟨n₂, hn₂, hnew, -⟩ := (redeem_inMemory _ (spendBody first nonce)).2 h₂
    rw [readNonce_spendBody] at hn₁ hn₂
    cases hn₁
    cases hn₂
    exact hnew (seen_afterRedeems between _ hmem)
  · intro hne
    let nonce : Bytes 32 := ⟨List.replicate 32 0, rfl⟩
    have hfirst : redeem inMemorySpentStore .new (spendBody first nonce)
        = (⟨{(first, nonce)}⟩, .ok ()) :=
      redeem_spendBody (by simp [InMemorySpentStore.new])
    have hsecond : redeem inMemorySpentStore ⟨{(first, nonce)}⟩ (spendBody second nonce)
        = (⟨insert (second, nonce) {(first, nonce)}⟩, .ok ()) :=
      redeem_spendBody (by simp [Ne.symm hne])
    refine ⟨.new, nonce, [], ?_, ?_⟩
    · rw [hfirst]
      rfl
    · rw [hfirst]
      rw [afterRedeems, List.foldl_nil, hsecond]
      rfl

/-! ## Resolving a key -/

variable {C : Crypto} {cfg : OriginConfig}

/-- The epoch of an entry is the version that was served, and the log had a record for it. -/
theorem servedVersion_of_resolveViaKt {tkid : Bytes 32} {kt : KtResponse}
    {served : UInt32 → Option IssuerPublicKey} {entry : KeyEntry}
    (h : resolveViaKt C cfg tkid (some kt) served = .ok (some entry)) :
    servedVersion kt served tkid = some entry.epoch := by
  simp only [resolveViaKt, Outcome.ofOption_some, Outcome.ok_bind, Outcome.bind_eq_ok] at h
  obtain ⟨found, hlookup, h⟩ := h
  cases found with
  | none => cases h
  | some rec =>
    simp only [Outcome.bind_eq_ok, Outcome.ofOption_eq_ok, Outcome.pure_eq_ok, Outcome.ok.injEq,
      Option.some.injEq] at h
    obtain ⟨pk, hpk, entry', haccept, rfl⟩ := h
    obtain ⟨-, -, hfind⟩ := lookupKt_ok hlookup
    obtain ⟨-, rfl⟩ := acceptKey_ok haccept
    simp only [servedVersion, loggedVersion, hfind, Option.map_some, Option.bind_some, hpk]

/--
**When two origins spend a token in one epoch.** For all answers that `/kt` and `/keys/{version}`
may give to two origins, if both resolve the key of a token, then both use the epoch of the log
they have verified and cannot both grant it exactly when each was served the logged version and
the two logs agree on it.
-/
theorem spendsOnce_iff (cfg₁ cfg₂ : OriginConfig) (tkid : Bytes 32) (kt₁ kt₂ : KtResponse)
    (served₁ served₂ : UInt32 → Option IssuerPublicKey) (entry₁ entry₂ : KeyEntry)
    (h₁ : resolveViaKt C cfg₁ tkid (some kt₁) served₁ = .ok (some entry₁))
    (h₂ : resolveViaKt C cfg₂ tkid (some kt₂) served₂ = .ok (some entry₂)) :
    SpendsOnce kt₁ kt₂ tkid entry₁ entry₂ ↔
      servedVersion kt₁ served₁ tkid = loggedVersion kt₁ tkid ∧
      servedVersion kt₂ served₂ tkid = loggedVersion kt₂ tkid ∧
      loggedVersion kt₁ tkid = loggedVersion kt₂ tkid := by
  have he₁ := servedVersion_of_resolveViaKt h₁
  have he₂ := servedVersion_of_resolveViaKt h₂
  constructor
  · intro h
    refine ⟨he₁.trans h.first.symm, he₂.trans h.second.symm, ?_⟩
    rw [h.first, h.second, h.same]
  · rintro ⟨hv₁, hv₂, hlogs⟩
    have hfirst : loggedVersion kt₁ tkid = some entry₁.epoch := hv₁.symm.trans he₁
    have hsecond : loggedVersion kt₂ tkid = some entry₂.epoch := hv₂.symm.trans he₂
    have hsame : entry₁.epoch = entry₂.epoch := by
      rw [hfirst, hsecond] at hlogs
      exact Option.some.inj hlogs
    exact ⟨hfirst, hsecond, hsame, fun hboth => grantBoth_iff.mp hboth hsame⟩

/-- The issuer's key, with another version in the JSON. -/
def relabelledKey (version : UInt32) : IssuerPublicKey :=
  { sampleIssuerKey with keyVersion := version }

/-- An origin resolves the issuer's key, whatever version is served with it. -/
theorem resolveViaKt_relabelled (version : UInt32) :
    resolveViaKt Crypto.sample sampleOrigin (sampleIssuerKey.tokenKeyId Crypto.sample)
      (some sampleServedKt) (fun _ => some (relabelledKey version))
      = .ok (some ⟨⟨relabelledKey version⟩, version⟩) := by
  have hfind : ∃ rec, findRecord sampleServedKt.records
      (sampleIssuerKey.tokenKeyId Crypto.sample) = some rec :=
    Option.isSome_iff_exists.mp (by decide +kernel)
  obtain ⟨rec, hfind⟩ := hfind
  have hid : (relabelledKey version).tokenKeyId Crypto.sample
      = sampleIssuerKey.tokenKeyId Crypto.sample := rfl
  rw [resolveViaKt, Outcome.ofOption_some, Outcome.ok_bind,
    lookupKt_eq_ok sampleServedKt_servedPub sampleServedKt_verifies, hfind, Outcome.ok_bind]
  simp only [Outcome.ofOption_some, Outcome.ok_bind, acceptKey_eq_ok hid, Outcome.pure_eq_ok]
  rfl

theorem loggedVersion_sample :
    loggedVersion sampleServedKt (sampleIssuerKey.tokenKeyId Crypto.sample) = some 1 := by
  decide +kernel

/-- An honest issuer serves the logged version to both. -/
theorem spendsOnce_honest_issuer :
    SpendsOnce sampleServedKt sampleServedKt (sampleIssuerKey.tokenKeyId Crypto.sample)
      ⟨⟨relabelledKey 1⟩, 1⟩ ⟨⟨relabelledKey 1⟩, 1⟩ := by
  refine (spendsOnce_iff sampleOrigin sampleOrigin _ _ _ _ _ _ _ (resolveViaKt_relabelled 1)
    (resolveViaKt_relabelled 1)).mpr ⟨?_, ?_, rfl⟩
  · simp [servedVersion, loggedVersion_sample, relabelledKey]
  · simp [servedVersion, loggedVersion_sample, relabelledKey]

/-- The key is served with version 1 to one origin and with version 2 to another. Both accept it,
and each can grant the same token. -/
theorem relabelled_key_splits_epoch :
    ¬ ∀ (C : Crypto) (cfg₁ cfg₂ : OriginConfig) (tkid : Bytes 32) (kt₁ kt₂ : KtResponse)
      (served₁ served₂ : UInt32 → Option IssuerPublicKey) (entry₁ entry₂ : KeyEntry),
      cfg₁.ktLogPub = cfg₂.ktLogPub →
      resolveViaKt C cfg₁ tkid (some kt₁) served₁ = .ok (some entry₁) →
      resolveViaKt C cfg₂ tkid (some kt₂) served₂ = .ok (some entry₂) →
      SpendsOnce kt₁ kt₂ tkid entry₁ entry₂ := by
  intro hall
  have honce := hall Crypto.sample sampleOrigin sampleOrigin _ _ _ _ _ _ _ rfl
    (resolveViaKt_relabelled 1) (resolveViaKt_relabelled 2)
  exact honce.once (grantBoth_iff.mpr (by decide))

end EatPass
