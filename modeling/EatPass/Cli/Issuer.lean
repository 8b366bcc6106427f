import Mathlib.Logic.Function.Basic
import EatPass.Core.LogChecks
import EatPass.Core.Sample
import EatPass.Cli.Wire

/-!
# The issuer process

`cli/src/issuer.rs` as a state machine. What the `RwLock` guards is `Rotating`; a handler that
holds the lock is one step. `rotate` is not one step: it reads the next version under the read
lock, generates a key without any lock, and writes under the write lock, so a rotation in flight
is part of the state (`RotateTask`) and other steps may come between its own.

`IssuerProc.step_cases` says everything a step can do to the guarded state.
-/

namespace EatPass

open Infra

/-- What a start of the issuer is configured with. -/
structure IssuerConfig (C : Crypto) where
  profile : Profile
  json : AuthorizationJson
  limiter : RateLimiter
  attesterPub : C.faest.VerificationKey
  logSigner : C.faest.SigningKey
  /-- `EATPASS_ADMIN_TOKEN`, if it is set and not empty. -/
  adminToken : Option String

/-- `Rotating`: the current key, the published keys by version, the log and its signed head. -/
structure Rotating where
  current : Issuer
  history : UInt32 → Option IssuerPublicKey
  log : KeyLog
  signedHead : SignedHead

/-- How far a `rotate` handler is. -/
inductive RotateTask where
  /-- It has read the version of the key it will generate. -/
  | versionRead (nextVersion : UInt32)
  /-- It holds the generated key and the time, and waits for the write lock. -/
  | generated (newIssuer : Issuer) (now : UInt64)
deriving DecidableEq

/-- The process: what the lock guards, the rotations in flight, the limiter. -/
structure IssuerProc {C : Crypto} (cfg : IssuerConfig C) where
  rot : Rotating
  tasks : Nat → Option RotateTask
  limiter : cfg.limiter.State

variable {C : Crypto} (cfg : IssuerConfig C)

/-! ## Handlers -/

/-- The state `run` builds before it serves: a key of version 1, published in a fresh log. -/
def startRotating (coins : List UInt8) (now : UInt64) : Outcome String Rotating :=
  let issuer := Issuer.generate C coins 1
  let pk := issuer.public
  match KeyLog.new.append C pk now with
  | none => .panic
  | some (keyLog, _) =>
    .ok { current := issuer
          history := Function.update (fun _ => none) pk.keyVersion (some pk)
          log := keyLog
          signedHead := logSignerSign C cfg.logSigner keyLog }

/-- `keys_version`. -/
def Rotating.keysVersion (rot : Rotating) (version : UInt32) : Reply IssuerPublicKey :=
  Outcome.ofOption (.notFound, "no such key_version " ++ toString version) (rot.history version)

/-- `kt`. -/
def Rotating.kt (rot : Rotating) : KtResponse where
  logPub := String.ofList (Hex.encode (logSignerPublic C cfg.logSigner).val)
  records := rot.log.records
  signedHead := rot.signedHead

/-- Reads `authorization_b64`. -/
def decodeAuthorization (json : AuthorizationJson) (text : String) :
    Reply IssuanceAuthorization := do
  let authBytes ← Outcome.ofOption (.badRequest, "authorization_b64 is not valid base64")
    (Base64.decode .standard text.toList)
  Outcome.ofOption (.badRequest, "authorization JSON") (json.fromSlice authBytes)

/-- `sign`; the limiter's counters are the only state it changes. -/
def IssuerConfig.sign (rot : Rotating) (limiter : cfg.limiter.State) (body : SignBody)
    (now limiterNow : UInt64) : cfg.limiter.State × Reply SignResponse :=
  match decodeAuthorization cfg.json body.authorizationB64 with
  | .err e => (limiter, .err e)
  | .panic => (limiter, .panic)
  | .ok auth =>
    let (limiter, result) := issueAuthorizedWithLimit C cfg.limiter rot.current cfg.attesterPub
      body.req auth limiter now limiterNow
    (limiter, result.mapErr GateError.reply)

/-- What was encoded for the client is read back by the issuer. -/
theorem decodeAuthorization_encode {json : AuthorizationJson} {auth : IssuanceAuthorization}
    (h : json.fromSlice (json.toVec auth) = some auth) :
    decodeAuthorization json (String.ofList (Base64.encode .standard (json.toVec auth)))
      = .ok auth := by
  simp only [decodeAuthorization, String.toList_ofList, Base64.decode_encode,
    Outcome.ofOption_some, Outcome.ok_bind, h]

variable {cfg} in
theorem IssuerConfig.sign_eq_ok {rot : Rotating} {limiter limiter' : cfg.limiter.State}
    {body : SignBody} {auth : IssuanceAuthorization} {now limiterNow : UInt64}
    {response : SignResponse}
    (hdec : decodeAuthorization cfg.json body.authorizationB64 = .ok auth)
    (hissue : issueAuthorizedWithLimit C cfg.limiter rot.current cfg.attesterPub body.req auth
      limiter now limiterNow = (limiter', .ok response)) :
    cfg.sign rot limiter body now limiterNow = (limiter', .ok response) := by
  simp only [IssuerConfig.sign, hdec, hissue, Outcome.mapErr_ok]

/-- What `rotate` checks first: it is enabled and the header holds the admin token. -/
def IssuerConfig.admitRotation (header : Option String) : Reply Unit := do
  let expected ← Outcome.ofOption
    (StatusCode.notFound, "rotation disabled (no admin token configured)") cfg.adminToken
  let presented := header.getD ""
  Outcome.require (presented ≠ "" ∧ presented = expected)
    (StatusCode.forbidden, "bad or missing x-admin-token")

/-- The read section of `rotate`. -/
def IssuerConfig.nextVersion (rot : Rotating) : Reply UInt32 :=
  addU32 cfg.profile rot.current.public.keyVersion 1

/-- The write section of `rotate`, and the answer. -/
def Rotating.write (rot : Rotating) (newIssuer : Issuer) (now : UInt64) :
    Outcome (StatusCode × String) (Rotating × RotateResponse) :=
  let newPk := newIssuer.public
  match rot.log.append C newPk now with
  | none => .panic
  | some (log, seq) =>
    let signedHead := logSignerSign C cfg.logSigner log
    .ok ({ current := newIssuer
           history := Function.update rot.history newPk.keyVersion (some newPk)
           log := log
           signedHead := signedHead },
         { keyVersion := newPk.keyVersion
           tokenKeyId := String.ofList (Hex.encode (newPk.tokenKeyId C).val)
           ktSeq := seq
           head := signedHead.head })

/-- `kt_seed_from_env`; the argument is the value of `EATPASS_KT_SEED`, if it is set. -/
def ktSeedFromEnv (env : Option String) : Outcome String (Bytes 32) := do
  let text ← Outcome.ofOption ("EATPASS_KT_SEED is required (64 hex chars): it is the stable "
    ++ "key-transparency log signing seed that clients pin. Generate one with "
    ++ "`openssl rand -hex 32` and persist it across restarts.") env
  let bytes ← Outcome.ofOption "EATPASS_KT_SEED bad hex" (Hex.decode (trim text.toList))
  Outcome.ofOption "EATPASS_KT_SEED must be exactly 32 bytes (64 hex chars)" (toBytes? 32 bytes)

/-- The process when it starts to serve. The counters of the limiter may be shared, so they are
whatever they are. -/
def IssuerProc.start (coins : List UInt8) (now : UInt64) (limiter : cfg.limiter.State) :
    Outcome String (IssuerProc cfg) := do
  let rot ← startRotating cfg coins now
  return { rot, tasks := fun _ => none, limiter }

/-! ## Steps -/

/-- What can happen next. A `rotate` request is named, so that its later steps can be told apart. -/
inductive IssuerEvent where
  | keys
  | keysVersion (version : UInt32)
  | kt
  | sign (body : SignBody) (now limiterNow : UInt64)
  | rotate (task : Nat) (adminHeader : Option String)
  | generate (task : Nat) (coins : List UInt8) (now : UInt64)
  | write (task : Nat)
deriving DecidableEq

/-- What a step answers; `working` is a step of a rotation that goes on. -/
inductive IssuerReply where
  | keys (pk : IssuerPublicKey)
  | keysVersion (reply : Reply IssuerPublicKey)
  | kt (kt : KtResponse)
  | sign (reply : Reply SignResponse)
  | rotate (reply : Reply RotateResponse)
  | working
deriving DecidableEq

variable {cfg}

/-- One step. `none`: the event cannot happen, since it names a rotation that is not there. -/
def IssuerProc.step (s : IssuerProc cfg) : IssuerEvent → Option (IssuerProc cfg × IssuerReply)
  | .keys => some (s, .keys s.rot.current.public)
  | .keysVersion version => some (s, .keysVersion (s.rot.keysVersion version))
  | .kt => some (s, .kt (s.rot.kt cfg))
  | .sign body now limiterNow =>
    let (limiter, reply) := cfg.sign s.rot s.limiter body now limiterNow
    some ({ s with limiter }, .sign reply)
  | .rotate task adminHeader =>
    if s.tasks task = none then
      match cfg.admitRotation adminHeader >>= fun _ => cfg.nextVersion s.rot with
      | .ok nextVersion =>
        some ({ s with tasks := Function.update s.tasks task (some (.versionRead nextVersion)) },
          .working)
      | .err e => some (s, .rotate (.err e))
      | .panic => some (s, .rotate .panic)
    else none
  | .generate task coins now =>
    match s.tasks task with
    | some (.versionRead nextVersion) =>
      let newIssuer := Issuer.generate C coins nextVersion
      some ({ s with tasks := Function.update s.tasks task (some (.generated newIssuer now)) },
        .working)
    | _ => none
  | .write task =>
    match s.tasks task with
    | some (.generated newIssuer now) =>
      let s := { s with tasks := Function.update s.tasks task none }
      match s.rot.write cfg newIssuer now with
      | .ok (rot, response) => some ({ s with rot }, .rotate (.ok response))
      | .err e => some (s, .rotate (.err e))
      | .panic => some (s, .rotate .panic)
    | _ => none

/-! ## What a step can do -/

/-- Everything a step can do to the guarded state and the rotations in flight. -/
inductive IssuerProc.StepKind (s s' : IssuerProc cfg) (e : IssuerEvent) (r : IssuerReply) : Prop
  /-- Nothing is published, and at most a rotation that failed is gone. -/
  | quiet (rot : s'.rot = s.rot)
      (tasks : ∀ t task, s'.tasks t = some task → s.tasks t = some task)
      (event : ∀ t header, e = .rotate t header → r ≠ .working)
      (reply : ∀ response, r ≠ .rotate (.ok response))
  /-- A rotation has read the version of its key. -/
  | read (task : Nat) (header : Option String) (version : UInt32)
      (event : e = .rotate task header) (reply : r = .working)
      (free : s.tasks task = none)
      (next : cfg.nextVersion s.rot = .ok version)
      (rot : s'.rot = s.rot)
      (tasks : s'.tasks = Function.update s.tasks task (some (.versionRead version)))
  /-- A rotation has generated its key. -/
  | generate (task : Nat) (coins : List UInt8) (now : UInt64) (version : UInt32)
      (event : e = .generate task coins now) (reply : r = .working)
      (read : s.tasks task = some (.versionRead version))
      (rot : s'.rot = s.rot)
      (tasks : s'.tasks = Function.update s.tasks task
        (some (.generated (Issuer.generate C coins version) now)))
  /-- A rotation has published its key. -/
  | write (task : Nat) (newIssuer : Issuer) (now : UInt64) (response : RotateResponse)
      (event : e = .write task) (reply : r = .rotate (.ok response))
      (generated : s.tasks task = some (.generated newIssuer now))
      (rot : s.rot.write cfg newIssuer now = .ok (s'.rot, response))
      (tasks : s'.tasks = Function.update s.tasks task none)

theorem IssuerProc.step_cases {s s' : IssuerProc cfg} {e : IssuerEvent} {r : IssuerReply}
    (h : s.step e = some (s', r)) : s.StepKind s' e r := by
  have hdrop : ∀ t task t', Function.update s.tasks t none t' = some task →
      s.tasks t' = some task := by
    intro t task t' ht
    by_cases he : t' = t
    · rw [he, Function.update_self] at ht
      cases ht
    · rwa [Function.update_of_ne he] at ht
  cases e with
  | keys =>
    cases h
    exact .quiet rfl (fun _ _ h => h) (by simp) (by simp)
  | keysVersion version =>
    cases h
    exact .quiet rfl (fun _ _ h => h) (by simp) (by simp)
  | kt =>
    cases h
    exact .quiet rfl (fun _ _ h => h) (by simp) (by simp)
  | sign body now limiterNow =>
    cases h
    exact .quiet rfl (fun _ _ h => h) (by simp) (by simp)
  | rotate task header =>
    simp only [IssuerProc.step] at h
    split at h
    · next hfree =>
      split at h
      · next version hread =>
        cases h
        obtain ⟨_, _, hnext⟩ := Outcome.bind_eq_ok.mp hread
        exact .read task header version rfl rfl hfree hnext rfl rfl
      · cases h
        exact .quiet rfl (fun _ _ h => h) (by simp) (by simp)
      · cases h
        exact .quiet rfl (fun _ _ h => h) (by simp) (by simp)
    · cases h
  | generate task coins now =>
    simp only [IssuerProc.step] at h
    split at h
    · next version hread =>
      cases h
      exact .generate task coins now version rfl rfl hread rfl rfl
    · cases h
  | write task =>
    simp only [IssuerProc.step] at h
    split at h
    · next newIssuer now hgen =>
      split at h
      · next rot response hwrite =>
        cases h
        exact .write task newIssuer now response rfl rfl hgen hwrite rfl
      · cases h
        exact .quiet rfl (fun t' task' => hdrop task task' t') (by simp) (by simp)
      · cases h
        exact .quiet rfl (fun t' task' => hdrop task task' t') (by simp) (by simp)
    · cases h

theorem IssuerProc.step_sign_eq {s : IssuerProc cfg} {body : SignBody} {now limiterNow : UInt64}
    {limiter : cfg.limiter.State} {reply : Reply SignResponse}
    (h : cfg.sign s.rot s.limiter body now limiterNow = (limiter, reply)) :
    s.step (.sign body now limiterNow) = some ({ s with limiter }, .sign reply) := by
  simp only [IssuerProc.step, h]

/-- A served key is the current one. -/
theorem IssuerProc.step_keys {s s' : IssuerProc cfg} {e : IssuerEvent} {pk : IssuerPublicKey}
    (h : s.step e = some (s', .keys pk)) : pk = s.rot.current.public ∧ s'.rot = s.rot := by
  cases e with
  | keys => cases h; exact ⟨rfl, rfl⟩
  | keysVersion version => cases h
  | kt => cases h
  | sign body now limiterNow => cases h
  | rotate task header => grind [IssuerProc.step]
  | generate task coins now => grind [IssuerProc.step]
  | write task => grind [IssuerProc.step]

/-- A key served for a version is the one in the history. -/
theorem IssuerProc.step_keysVersion {s s' : IssuerProc cfg} {e : IssuerEvent}
    {pk : IssuerPublicKey} (h : s.step e = some (s', .keysVersion (.ok pk))) :
    ∃ version, e = .keysVersion version ∧ s.rot.history version = some pk := by
  cases e with
  | keys => cases h
  | keysVersion version =>
    simp only [IssuerProc.step, Option.some.injEq, Prod.mk.injEq, IssuerReply.keysVersion.injEq,
      Rotating.keysVersion, Outcome.ofOption_eq_ok] at h
    exact ⟨version, rfl, h.2⟩
  | kt => cases h
  | sign body now limiterNow => cases h
  | rotate task header => grind [IssuerProc.step]
  | generate task coins now => grind [IssuerProc.step]
  | write task => grind [IssuerProc.step]

/-- A served log is the current one. -/
theorem IssuerProc.step_kt {s s' : IssuerProc cfg} {e : IssuerEvent} {kt : KtResponse}
    (h : s.step e = some (s', .kt kt)) : kt = s.rot.kt cfg ∧ s'.rot = s.rot := by
  cases e with
  | keys => cases h
  | keysVersion version => cases h
  | kt => cases h; exact ⟨rfl, rfl⟩
  | sign body now limiterNow => cases h
  | rotate task header => grind [IssuerProc.step]
  | generate task coins now => grind [IssuerProc.step]
  | write task => grind [IssuerProc.step]

/-! ## A concrete issuer -/

/-- The text `serde_json` writes, as long as the label needs no escape. -/
def authorizationText (auth : IssuanceAuthorization) : String :=
  "\x7b\"version\":" ++ toString auth.version
    ++ ",\"binding\":\"" ++ String.ofList (Hex.encode auth.binding.val)
    ++ "\",\"rate_limit_id\":\"" ++ String.ofList (Base64.encode .standard auth.rateLimitId)
    ++ "\",\"policy_label\":\"" ++ auth.policyLabel
    ++ "\",\"max_batch\":" ++ toString auth.maxBatch
    ++ ",\"exp\":" ++ toString auth.exp
    ++ ",\"iat\":" ++ toString auth.iat
    ++ ",\"sig\":\"" ++ String.ofList (Base64.encode .standard auth.sig) ++ "\"\x7d"

theorem toList_toString_u32 (n : UInt32) : (toString n).toList = Nat.toDigits 10 n.toNat := by
  simp [toString, Nat.repr]

theorem toList_toString_u64 (n : UInt64) : (toString n).toList = Nat.toDigits 10 n.toNat := by
  simp [toString, Nat.repr]

/-- The text in its parts: up to the label from the front, and the rest from the back. -/
theorem toList_authorizationText (auth : IssuanceAuthorization) :
    (authorizationText auth).toList = "\x7b\"version\":".toList
      ++ (Nat.toDigits 10 auth.version.toNat ++ ',' :: ("\"binding\":\"".toList
      ++ (Hex.encode auth.binding.val ++ ("\",\"rate_limit_id\":\"".toList
      ++ (Base64.encode .standard auth.rateLimitId ++ '"' :: (",\"policy_label\":\"".toList
      ++ (auth.policyLabel.toList ++ "\",\"max_batch\"".toList
        ++ ':' :: Nat.toDigits 10 auth.maxBatch.toNat ++ ",\"exp\"".toList
        ++ ':' :: Nat.toDigits 10 auth.exp.toNat ++ ",\"iat\"".toList
        ++ ':' :: Nat.toDigits 10 auth.iat.toNat ++ ",\"sig\":".toList
        ++ '"' :: Base64.encode .standard auth.sig ++ "\"\x7d".toList))))))) := by
  unfold authorizationText
  simp [toList_toString_u32, toList_toString_u64]

theorem authorizationText_injective : Function.Injective authorizationText := by
  intro a b h
  have h := congrArg String.toList h
  rw [toList_authorizationText, toList_authorizationText] at h
  obtain ⟨hversion, h⟩ := append_cons_inj (not_mem_toDigits (by decide) _)
    (not_mem_toDigits (by decide) _) (List.append_cancel_left h)
  obtain ⟨hbinding, h⟩ := List.append_inj (List.append_cancel_left h) (by
    rw [Hex.length_encode, Hex.length_encode, a.binding.2, b.binding.2])
  obtain ⟨hid, h⟩ := append_cons_inj (Base64.not_mem_encode_standard _)
    (Base64.not_mem_encode_standard _) (List.append_cancel_left h)
  -- the label may hold anything, so the rest is read from its end
  have h := List.append_cancel_right (List.append_cancel_left h)
  obtain ⟨h, hsig⟩ := append_cons_inj' (Base64.not_mem_encode_standard _)
    (Base64.not_mem_encode_standard _) h
  obtain ⟨h, hiat⟩ := append_cons_inj' (not_mem_toDigits (by decide) _)
    (not_mem_toDigits (by decide) _) (List.append_cancel_right h)
  obtain ⟨h, hexp⟩ := append_cons_inj' (not_mem_toDigits (by decide) _)
    (not_mem_toDigits (by decide) _) (List.append_cancel_right h)
  obtain ⟨h, hbatch⟩ := append_cons_inj' (not_mem_toDigits (by decide) _)
    (not_mem_toDigits (by decide) _) (List.append_cancel_right h)
  have hlabel := String.toList_injective (List.append_cancel_right h)
  have hversion := UInt32.toNat_inj.mp (toDigits_inj hversion)
  have hbatch := UInt32.toNat_inj.mp (toDigits_inj hbatch)
  have hexp := UInt64.toNat_inj.mp (toDigits_inj hexp)
  have hiat := UInt64.toNat_inj.mp (toDigits_inj hiat)
  have hbinding := Subtype.ext (Hex.encode_injective hbinding)
  have hid := Base64.encode_injective .standard hid
  have hsig := Base64.encode_injective .standard hsig
  cases a
  cases b
  simp_all

/-- A reader that knows the texts of the given authorizations. -/
def AuthorizationJson.sample (known : List IssuanceAuthorization) : AuthorizationJson where
  toVec auth := utf8 (authorizationText auth)
  fromSlice bytes := known.find? fun auth => utf8 (authorizationText auth) = bytes

/-- An issuer on the stand-ins of `Crypto.sample`, in a release build. -/
def sampleConfig (known : List IssuanceAuthorization) : IssuerConfig Crypto.sample where
  profile := .release
  json := .sample known
  limiter := noLimit
  attesterPub := Crypto.sample.faest.publicBytesFromSk sampleSigningKey
  logSigner := sampleSigningKey
  adminToken := some "admin"

/-- The log that issuer starts with. -/
def sampleKeyLog : KeyLog :=
  KeyLog.ofKeys Crypto.sample [((Issuer.generate Crypto.sample [1] 1).public, 1000)] (by decide)

/-- That issuer when it starts to serve. -/
def sampleIssuer (known : List IssuanceAuthorization) : IssuerProc (sampleConfig known) where
  rot :=
    { current := Issuer.generate Crypto.sample [1] 1
      history := Function.update (fun _ => none) 1
        (some (Issuer.generate Crypto.sample [1] 1).public)
      log := sampleKeyLog
      signedHead := logSignerSign Crypto.sample sampleSigningKey sampleKeyLog }
  tasks _ := none
  limiter := ()

theorem sampleIssuer_start (known : List IssuanceAuthorization) :
    IssuerProc.start (sampleConfig known) [1] 1000 () = .ok (sampleIssuer known) := rfl

end EatPass
