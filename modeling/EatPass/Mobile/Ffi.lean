import Mathlib.Logic.Function.Basic
import EatPass.Mobile.Client

/-!
# The stdio helper

`mobile/src/bin/eat-pass-mobile-ffi.rs`: language SDKs without bindings write JSON lines to the
helper and read one JSON line for each. The helper keeps a client for each session id. It reads one
line after the other, so its locks are never contended.

A line is modelled by what `serde_json` makes of it, and the JSON texts inside a line likewise. The
random values of a `begin` come from a source that goes with the line.

* `FfiState.step_cases` — what a line can do
-/

namespace EatPass

open Infra

/-- `Line`. Absent fields have their defaults. -/
structure FfiLine where
  op : String
  id : UInt64
  issuerPkJson : Except String IssuerPublicKey
  issuerName : String
  originInfo : String
  count : UInt32
  signResponseJson : Except String SignResponse

/-- What is in the `result` of an answer. -/
inductive FfiResult where
  | id (id : UInt64)
  | begun (result : BeginResult)
  | authorizationHeader (header : String)
  | empty

/-- An answer; `panic` is none, since the helper is gone. -/
inductive FfiReply where
  | ok (result : FfiResult)
  | err (message : String)
  | panic

/-- `State`. -/
structure FfiState (C : Crypto) where
  nextId : UInt64
  clients : UInt64 → Option (EatPassClient C)

/-- The answer to a call on a client. Only the first header is kept. -/
def FfiReply.ofClient : ClientReply → FfiReply
  | .begun result => .ok (.begun result)
  | .finalized (.ok headers) => .ok (.authorizationHeader (headers.headD ""))
  | .finalized (.err e) => .err e.message
  | .finalized .panic => .panic

/-- The answer for an id without a client. -/
def unknownSession : FfiReply := .err "unknown session id; call new first"

variable (C : Crypto)

/-- The state `main` starts with. -/
def FfiState.start : FfiState C := ⟨1, fun _ => none⟩

/-- `handle`. A `new` that fails uses up an id too. -/
def FfiState.handle (s : FfiState C) (line : FfiLine) (random : Nat → Bytes 32 × Bytes 32) :
    FfiState C × FfiReply :=
  match line.op with
  | "new" =>
    let id := s.nextId
    let s := { s with nextId := id + 1 }
    match EatPassClient.new C line.issuerPkJson line.issuerName line.originInfo with
    | .ok client =>
      ({ s with clients := Function.update s.clients id (some client) }, .ok (.id id))
    | .err e => (s, .err e.message)
    | .panic => (s, .panic)
  | "begin" =>
    match s.clients line.id with
    | none => (s, unknownSession)
    | some client =>
      let (client, result) := client.begin C ((List.range (max line.count 1).toNat).map random)
      ({ s with clients := Function.update s.clients line.id (some client) },
        .ofClient (.begun result))
  | "finalize" =>
    match s.clients line.id with
    | none => (s, unknownSession)
    | some client =>
      let (client, result) := client.finalize C line.signResponseJson
      ({ s with clients := Function.update s.clients line.id (some client) },
        .ofClient (.finalized result))
  | "drop" => ({ s with clients := Function.update s.clients line.id none }, .ok .empty)
  | _ => (s, .err "unknown op; use new, begin, finalize, drop")

/-- What the loop of `main` reads. -/
inductive FfiInput where
  /-- Reading fails. -/
  | failed (e : String)
  /-- A line of blanks is skipped. -/
  | blank
  /-- A line that `serde_json` refuses. -/
  | invalid (e : String)
  | line (l : FfiLine) (random : Nat → Bytes 32 × Bytes 32)

/-- One turn of the loop of `main`, with the answer that is written, if any. -/
def FfiState.step (s : FfiState C) : FfiInput → Option (FfiState C × Option FfiReply)
  | .failed e => some (s, some (.err e))
  | .blank => some (s, none)
  | .invalid e => some (s, some (.err ("invalid json: " ++ e)))
  | .line line random =>
    let (s, reply) := s.handle C line random
    some (s, some reply)

/-- The inputs so far and the answers, oldest first. -/
abbrev FfiHistory := List (FfiInput × Option FfiReply)

/-- What a line does to the sessions. -/
inductive FfiAction where
  /-- It makes a client for the next id, or fails to. -/
  | new (client : Outcome MobileError (EatPassClient C))
  | call (id : UInt64) (k : ClientCall)
  | drop (id : UInt64)
  | nothing

def FfiInput.action : FfiInput → FfiAction C
  | .line l random =>
    match l.op with
    | "new" => .new (EatPassClient.new C l.issuerPkJson l.issuerName l.originInfo)
    | "begin" => .call l.id (.begin ((List.range (max l.count 1).toNat).map random))
    | "finalize" => .call l.id (.finalize l.signResponseJson)
    | "drop" => .drop l.id
    | _ => .nothing
  | _ => .nothing

variable {C}

/-- Everything a turn of the loop can do. -/
inductive FfiState.StepKind (s s' : FfiState C) (input : FfiInput) (out : Option FfiReply) : Prop
  | quiet (action : input.action C = .nothing) (reply : ∀ r, out ≠ some (.ok r)) (same : s' = s)
  | failed (client : Outcome MobileError (EatPassClient C)) (action : input.action C = .new client)
      (reply : ∀ r, out ≠ some (.ok r)) (state : s' = { s with nextId := s.nextId + 1 })
  | opened (client : EatPassClient C) (action : input.action C = .new (.ok client))
      (reply : out = some (.ok (.id s.nextId)))
      (state : s' = ⟨s.nextId + 1, Function.update s.clients s.nextId (some client)⟩)
  | unknown (id : UInt64) (k : ClientCall) (action : input.action C = .call id k)
      (absent : s.clients id = none) (reply : out = some unknownSession) (same : s' = s)
  | called (id : UInt64) (k : ClientCall) (client client' : EatPassClient C) (reply : ClientReply)
      (action : input.action C = .call id k) (found : s.clients id = some client)
      (step : client.step C k = some (client', reply)) (reply : out = some (.ofClient reply))
      (state : s' = { s with clients := Function.update s.clients id (some client') })
  | dropped (id : UInt64) (action : input.action C = .drop id) (reply : out = some (.ok .empty))
      (state : s' = { s with clients := Function.update s.clients id none })

theorem FfiState.step_cases {s s' : FfiState C} {input : FfiInput} {out : Option FfiReply}
    (h : s.step C input = some (s', out)) : s.StepKind s' input out := by
  cases input with
  | failed e => cases h; exact .quiet rfl (by simp) rfl
  | blank => cases h; exact .quiet rfl (by simp) rfl
  | invalid e => cases h; exact .quiet rfl (by simp) rfl
  | line line random =>
    simp only [step, handle] at h
    split at h
    · next hop =>
      have haction : (FfiInput.line line random).action C
          = .new (EatPassClient.new C line.issuerPkJson line.issuerName line.originInfo) := by
        simp only [FfiInput.action, hop]
      generalize EatPassClient.new C line.issuerPkJson line.issuerName line.originInfo = made
        at h haction
      cases made with
      | ok client => cases h; exact .opened client haction rfl rfl
      | err e => cases h; exact .failed _ haction (by simp) rfl
      | panic => cases h; exact .failed _ haction (by simp) rfl
    · next hop =>
      have haction : (FfiInput.line line random).action C
          = .call line.id (.begin ((List.range (max line.count 1).toNat).map random)) := by
        simp only [FfiInput.action, hop]
      cases hfound : s.clients line.id with
      | none =>
        rw [hfound] at h
        cases h
        exact .unknown _ _ haction hfound rfl rfl
      | some client =>
        rw [hfound] at h
        cases h
        exact .called _ _ client _ _ haction hfound rfl rfl rfl
    · next hop =>
      have haction : (FfiInput.line line random).action C
          = .call line.id (.finalize line.signResponseJson) := by
        simp only [FfiInput.action, hop]
      cases hfound : s.clients line.id with
      | none =>
        rw [hfound] at h
        cases h
        exact .unknown _ _ haction hfound rfl rfl
      | some client =>
        rw [hfound] at h
        cases h
        exact .called _ _ client _ _ haction hfound rfl rfl rfl
    · next hop =>
      cases h
      exact .dropped line.id (by simp only [FfiInput.action, hop]) rfl rfl
    · next hnew hbegin hfinalize hdrop =>
      cases h
      refine .quiet ?_ (by simp) rfl
      simp only [FfiInput.action]

end EatPass
