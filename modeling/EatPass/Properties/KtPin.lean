import EatPass.Cli.Client
import EatPass.Desktop.Mint
import EatPass.Properties.LogEdges

/-!
# The pinned log key in two clients

The CLI client and the desktop SDK are both given the public key of the log. The client verifies the
log under it and looks the served key up. The SDK compares the key that the issuer names with its
own and goes on: no head and no record is looked at.

* `sdk_as_strict_iff` — the answers on which the SDK is as strict as the client
-/

namespace EatPass

open Infra

variable {C : Crypto} {str : PythonStr}

/-! ## What the client accepts -/

/-- The served log is signed by the holder of the pinned key and has the issuer key in it. -/
structure SignedLog (C : Crypto) (p : Profile) (logPub : Bytes 32) (kt : KtResponse)
    (tkid : Bytes 32) : Prop where
  count : kt.records.length = (kt.signedHead.seq.toNat + 1) % 2 ^ 64
  fits : p = .debug → kt.signedHead.seq.toNat + 1 < 2 ^ 64
  signed : ∃ es vk sig, readAll kt.records = .ok es ∧
    parseHead kt.signedHead = .ok (entriesHead C es) ∧
    C.faest.verifyingKeyFromBytes logPub = some vk ∧
    Base64.decode .standard (trim kt.signedHead.sig.toList) = some sig ∧
    C.faest.verify vk (sthMessage kt.signedHead.seq (entriesHead C es)) sig = true
  listed : ∃ r ∈ kt.records, Hex.decode r.tokenKeyId.toList = some tkid.val

/-- The pin is a key of 32 bytes, and the answer to `/kt` a log of its holder. -/
def PinnedLog (C : Crypto) (p : Profile) (pin : String) (body : KtBody) (tkid : Bytes 32) : Prop :=
  ∃ logPub kt, Hex.decode (trim pin.toList) = some logPub.val ∧ body.parsed = .ok kt ∧
    SignedLog C p logPub kt tkid

theorem signedLog_iff {p : Profile} {logPub : Bytes 32} {kt : KtResponse} {tkid : Bytes 32} :
    SignedLog C p logPub kt tkid ↔
      verifyLog C p logPub kt.records kt.signedHead = .ok () ∧ Included kt.records tkid := by
  rw [verifyLog_eq_ok, addUsize_eq_ok_iff, included_iff_findRecord, findRecord_isSome_iff]
  constructor
  · rintro ⟨hcount, hfits, ⟨es, vk, sig, hes, hhead, hvk, hdec, hsig⟩, hlisted⟩
    exact ⟨⟨⟨hcount, hfits⟩, es, hes, hhead, vk, hvk, sig, hdec, hsig⟩, hlisted⟩
  · rintro ⟨⟨⟨hcount, hfits⟩, es, hes, hhead, vk, hvk, sig, hdec, hsig⟩, hlisted⟩
    exact ⟨hcount, hfits, ⟨es, vk, sig, hes, hhead, hvk, hdec, hsig⟩, hlisted⟩

/-- Without an earlier head the client accepts a log with the pinned key in `log_pub`. -/
theorem ktChecks_isOk_iff {p : Profile} {logPub : Bytes 32} {pk : IssuerPublicKey}
    {kt : KtResponse} :
    (∃ result, ktChecks C p logPub none pk kt = .ok result) ↔
      kt.servedPub = logPub.val ∧ SignedLog C p logPub kt (pk.tokenKeyId C) := by
  rw [signedLog_iff]
  simp only [ktChecks, Outcome.bind_eq_ok, Outcome.require_eq_ok, Outcome.mapErr_eq_ok,
    Outcome.pure_eq_ok, Outcome.ok.injEq, Included]
  constructor
  · rintro ⟨_, _, hpub, _, hlog, seq, hseq, _⟩
    exact ⟨hpub, hlog, seq, hseq⟩
  · rintro ⟨hpub, hlog, seq, hseq⟩
    exact ⟨_, (), hpub, (), hlog, seq, hseq, rfl⟩

theorem runChecks_isOk_iff {p : Profile} {pin : String}
    {keys : Except String (Except String IssuerPublicKey)}
    {kt : Except String (Except String KtResponse)} :
    (∃ result, runChecks C p pin none keys kt = .ok result) ↔
      ∃ logPub pk served, Hex.decode (trim pin.toList) = some logPub.val ∧ keys = .ok (.ok pk) ∧
        kt = .ok (.ok served) ∧ served.servedPub = logPub.val ∧
        SignedLog C p logPub served (pk.tokenKeyId C) := by
  simp only [runChecks, Outcome.bind_eq_ok, Outcome.ofExcept_eq_ok, parseHex32_eq_ok]
  constructor
  · rintro ⟨result, logPub, hpin, _, rfl, pk, rfl, _, rfl, served, rfl, hchecks⟩
    exact ⟨logPub, pk, served, hpin, rfl, rfl, ktChecks_isOk_iff.mp ⟨result, hchecks⟩⟩
  · rintro ⟨logPub, pk, served, hpin, rfl, rfl, hchecks⟩
    obtain ⟨result, hresult⟩ := ktChecks_isOk_iff.mpr hchecks
    exact ⟨result, logPub, hpin, _, rfl, pk, rfl, _, rfl, served, rfl, hresult⟩

/-! ## What the SDK compares -/

/--
**A text that the SDK takes for the pin is read as the pinned key**, whitespace and case aside.
-/
theorem decode_of_lower_eq {text pin : String} {logPub : Bytes 32}
    (hpin : Hex.decode (trim pin.toList) = some logPub.val)
    (hlower : str.lower text = str.lower pin) :
    Hex.decode (trim text.toList) = some logPub.val := by
  have hdigits : ∀ c ∈ pin.toList, isWhitespace c = true ∨ ∃ n, Hex.digitValue c = some n := by
    intro c hc
    rcases mem_trim_or hc with hkept | hspace
    · exact .inr (Hex.exists_digitValue_of_mem hpin hkept)
    · exact .inl hspace
  have hcase := str.lower_hex text pin hlower hdigits
  rw [Hex.decode_eq_some_iff] at hpin ⊢
  rw [← trim_map isWhitespace_toLower, hcase, trim_map isWhitespace_toLower, hpin]

/--
**The SDK is as strict as the client on the answers it refuses and on the logs of the pinned key.**
If it goes on to `begin` with a pair of answers, the checks of the client succeed on the pair
exactly if the answer to `/kt` is a whole log, signed by the holder of the pinned key, with the
served key in it.
-/
theorem sdk_as_strict_iff (p : Profile) {config : EatPassBaseConfig} {pin : String}
    (hpin : config.ktLogPubHex = some pin) (hne : pin ≠ "")
    (keys : Except String (Except String IssuerPublicKey)) (kt : Except String KtBody) :
    ((∃ client, mintClient C str config keys kt = .ok client) →
        ∃ result, runChecks C p pin none keys (kt.map KtBody.parsed) = .ok result) ↔
      ∀ pk body text, keys = .ok (.ok pk) → kt = .ok body → body.served = .ok text →
        str.lower text = str.lower pin → PinnedLog C p pin body (pk.tokenKeyId C) := by
  simp only [mintClient_eq_ok hpin hne, runChecks_isOk_iff]
  constructor
  · rintro h pk body text rfl rfl htext hlower
    obtain ⟨logPub, _, served, hdec, hkeys, hserved, -, hlog⟩ :=
      h ⟨_, pk, body, text, rfl, rfl, htext, hlower, rfl⟩
    cases hkeys
    exact ⟨logPub, served, hdec, Except.ok.inj hserved, hlog⟩
  · rintro h ⟨_, pk, body, text, rfl, rfl, htext, hlower, -⟩
    obtain ⟨logPub, served, hdec, hparsed, hlog⟩ := h pk body text rfl rfl htext hlower
    have hpub : served.servedPub = logPub.val := by
      rw [KtResponse.servedPub, ← body.agree text served htext hparsed,
        decode_of_lower_eq hdec hlower, Option.getD_some]
    exact ⟨logPub, pk, served, hdec, rfl, congrArg Except.ok hparsed, hpub, hlog⟩

/-! ## Two answers to `/kt` -/

/-- Lower case of ASCII texts. -/
def asciiStr : PythonStr where
  lower s := String.ofList (s.toList.map Char.toLower)
  lower_hex s t h _ := by
    have := congrArg String.toList h
    simpa using this

/-- The public key of the sample log, as it is pinned. -/
def samplePin : String :=
  String.ofList (Hex.encode (logSignerPublic Crypto.sample sampleSigningKey).val)

def pinnedConfig : EatPassBaseConfig := { ktLogPubHex := some samplePin }

/-- An answer with the pinned key in `log_pub`. -/
def pinnedBody (records : List KeyRecord) (sth : SignedHead) : KtBody where
  served := .ok samplePin
  parsed := .ok ⟨samplePin, records, sth⟩
  agree := by
    rintro _ _ ⟨⟩ ⟨⟩
    rfl

/-- The log of one key, as the operator signs it. -/
def oneKeyLog : KeyLog := .ofKeys Crypto.sample oneKey (by decide)

theorem pinnedLog_oneKeyLog :
    PinnedLog Crypto.sample .release samplePin
      (pinnedBody oneKeyLog.records (logSignerSign Crypto.sample sampleSigningKey oneKeyLog))
      ((Issuer.generate Crypto.sample [1] 1).public.tokenKeyId Crypto.sample) := by
  refine ⟨logSignerPublic Crypto.sample sampleSigningKey, _, by simp [samplePin], rfl, ?_⟩
  refine signedLog_iff.mpr ⟨?_, verifyInclusion_recordsFrom Crypto.sample 0
    (show (_, (0 : UInt64)) ∈ oneKey from List.mem_cons_self)⟩
  exact verifyLog_sign Crypto.sample Faest.sample_complete .release sampleSigningKey oneKeyLog
    (List.cons_ne_nil _ _)

theorem sdk_as_strict_iff_oneKeyLog :
    ∃ result, runChecks Crypto.sample .release samplePin none
      (.ok (.ok (Issuer.generate Crypto.sample [1] 1).public))
      (.ok (.ok ⟨samplePin, oneKeyLog.records,
        logSignerSign Crypto.sample sampleSigningKey oneKeyLog⟩)) = .ok result := by
  let issuer := Issuer.generate Crypto.sample [1] 1
  let body := pinnedBody oneKeyLog.records
    (logSignerSign Crypto.sample sampleSigningKey oneKeyLog)
  have hne : samplePin ≠ "" := by decide +kernel
  have hclient : mintClient Crypto.sample asciiStr pinnedConfig (.ok (.ok issuer.public)) (.ok body)
      = .ok ⟨issuer.public, .new pinnedConfig.issuerName pinnedConfig.originInfo, none⟩ :=
    (mintClient_eq_ok rfl hne).mpr ⟨issuer.public, body, samplePin, rfl, rfl, rfl, rfl, rfl⟩
  refine (@sdk_as_strict_iff _ asciiStr .release pinnedConfig samplePin rfl hne
    (.ok (.ok issuer.public)) (.ok body)).mpr ?_ ⟨_, hclient⟩
  rintro _ _ _ ⟨⟩ ⟨⟩ - -
  exact pinnedLog_oneKeyLog

/-- The pinned key in `log_pub`, and no log. -/
def emptyBody : KtBody := pinnedBody [] ⟨0, "", ""⟩

/-- An issuer that serves a key of its own and the empty body. -/
def unloggedServices : MintServices where
  keys := .ok (.ok (Issuer.generate Crypto.sample [2] 1).public)
  kt := .ok emptyBody
  authorize _ := .ok (.ok ⟨""⟩)
  sign body := .ok (.ok
    (issuerSign Crypto.sample (Issuer.generate Crypto.sample [2] 1).sk body.req.body))

/--
With no log at all behind the pinned key in `log_pub`, the SDK makes its client and mints a token
for whatever key the issuer serves. The CLI client refuses the same two answers.
-/
theorem unlogged_key_minted :
    (∃ client, mintClient Crypto.sample asciiStr pinnedConfig unloggedServices.keys
      unloggedServices.kt = .ok client) ∧
    (∃ result, mintAuthorizationHeader Crypto.sample asciiStr pinnedConfig unloggedServices
      (fun _ => .ok "") (sampleSigningKey, sampleSigningKey) = .ok result) ∧
    runChecks Crypto.sample .release samplePin none unloggedServices.keys
        (unloggedServices.kt.map KtBody.parsed)
      = .err "kt: log does not verify against pinned key: signed-head seq 0 != record count 0" := by
  let issuer := Issuer.generate Crypto.sample [2] 1
  have hclient : mintClient Crypto.sample asciiStr pinnedConfig unloggedServices.keys
      unloggedServices.kt
        = .ok ⟨issuer.public, .new pinnedConfig.issuerName pinnedConfig.originInfo, none⟩ :=
    (mintClient_eq_ok rfl (by decide +kernel)).mpr
      ⟨issuer.public, emptyBody, samplePin, rfl, rfl, rfl, rfl, rfl⟩
  refine ⟨⟨_, hclient⟩, ?_, by decide +kernel⟩
  obtain ⟨result, hresult, -⟩ := mintAuthorizationHeader_eq_ok hclient
    (show _ = issuer.public from rfl) (fun _ => rfl) (fun _ => rfl) (fun _ => rfl)
    (sampleSigningKey, sampleSigningKey)
  exact ⟨result, hresult⟩

end EatPass
