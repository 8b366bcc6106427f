import EatPass.Infra.Base64
import EatPass.Infra.Hex
import EatPass.Infra.HashChain
import EatPass.Infra.Outcome
import EatPass.Core.Key

/-!
# Key transparency

`core/src/transparency.rs`: the append-only key log, its signed head, and the three checks of a
client. Records are served as text, so every check reads them first (`KeyRecord.read`) and the
chain commits to what was read. A text that is trimmed or written in another case is the same
entry to the chain.

`chainHeads_eq` connects the loop of the source to `HashChain.heads` over the entries; the results
about heads go through it.
-/

namespace EatPass

open Infra

/-! ## Records and heads -/

/-- `TransparencyError`. -/
inductive TransparencyError where
  | hex (field : String)
  | length (field : String)
  | headMismatch
  | seqMismatch (sth : UInt64) (records : Nat)
  | badSignature
  | notIncluded
  | notConsistent
deriving DecidableEq

/-- The `Display` text of the error. -/
def TransparencyError.message : TransparencyError → String
  | .hex field => "bad hex in " ++ field
  | .length field => "record " ++ field ++ " wrong length"
  | .headMismatch => "signed head does not match the served records"
  | .seqMismatch sth records =>
    "signed-head seq " ++ toString sth ++ " != record count " ++ toString records
  | .badSignature => "signed-head signature invalid"
  | .notIncluded => "token_key_id not present in the log"
  | .notConsistent => "new log does not extend the previously-seen head (history rewritten)"

/-- One published key in the log. -/
structure KeyRecord where
  seq : UInt64
  keyVersion : UInt32
  tokenKeyId : String
  notBefore : UInt64
deriving DecidableEq

/-- Signed commitment to the chain head. -/
structure SignedHead where
  seq : UInt64
  head : String
  sig : String
deriving DecidableEq

/-- A record as the leaf hash reads it: with the bytes of its `token_key_id`. -/
structure LogEntry where
  seq : UInt64
  keyVersion : UInt32
  tokenKeyId : Bytes 32
  notBefore : UInt64
deriving DecidableEq

/-- Reads a text field of 32 bytes of hexadecimal, whitespace around it allowed. -/
def decodeHex32 (field : String) (text : String) : Outcome TransparencyError (Bytes 32) :=
  match Hex.decode (trim text.toList) with
  | none => .err (.hex field)
  | some v => Outcome.ofOption (.length field) (toBytes? 32 v)

/-- `KeyRecord::token_key_id_bytes`. -/
def KeyRecord.tokenKeyIdBytes (r : KeyRecord) : Outcome TransparencyError (Bytes 32) :=
  decodeHex32 "token_key_id" r.tokenKeyId

/-- `parse_head`. -/
def parseHead (sth : SignedHead) : Outcome TransparencyError (Bytes 32) :=
  decodeHex32 "head" sth.head

def KeyRecord.read (r : KeyRecord) : Outcome TransparencyError LogEntry := do
  let tkid ← r.tokenKeyIdBytes
  return { seq := r.seq, keyVersion := r.keyVersion, tokenKeyId := tkid, notBefore := r.notBefore }

/-- Reads all records, up to the first one that cannot be read. -/
def readAll : List KeyRecord → Outcome TransparencyError (List LogEntry)
  | [] => .ok []
  | r :: rest => do
    let e ← r.read
    let es ← readAll rest
    return e :: es

/-! ## Hashes -/

/-- ASCII text as bytes (`b"…"`). -/
def ascii (s : String) : List UInt8 := s.toList.map fun c => UInt8.ofNat c.toNat

def leafDomain : List UInt8 := ascii "eat-pass/kt/leaf" ++ [0]
def headDomain : List UInt8 := ascii "eat-pass/kt/head" ++ [0]
def sthDomain : List UInt8 := ascii "eat-pass/kt/sth" ++ [0]

/-- What `leaf_hash` hashes. -/
def LogEntry.leafMessage (e : LogEntry) : List UInt8 :=
  leafDomain ++ (beBytes 8 e.seq.toNat ++ (beBytes 4 e.keyVersion.toNat
    ++ (e.tokenKeyId.val ++ beBytes 8 e.notBefore.toNat)))

/-- What `step` hashes. -/
def stepMessage (prev leaf : Bytes 32) : List UInt8 := headDomain ++ (prev.val ++ leaf.val)

def sthMessage (seq : UInt64) (head : Bytes 32) : List UInt8 :=
  sthDomain ++ (beBytes 8 seq.toNat ++ head.val)

variable (C : Crypto)

def KeyRecord.leafHash (r : KeyRecord) : Outcome TransparencyError (Bytes 32) := do
  let e ← r.read
  return C.sha256 e.leafMessage

def genesisHead : Bytes 32 := C.sha256 (headDomain ++ ascii "genesis")

/-- Folds one leaf into the running head. -/
def step (prev leaf : Bytes 32) : Bytes 32 := C.sha256 (stepMessage prev leaf)

/-- The loop of `chain_heads` from a running head on. -/
def chainHeadsFrom (cur : Bytes 32) : List KeyRecord → Outcome TransparencyError (List (Bytes 32))
  | [] => .ok []
  | r :: rest => do
    let leaf ← r.leafHash C
    let heads ← chainHeadsFrom (step C cur leaf) rest
    return step C cur leaf :: heads

/-- `chain_heads`: the head after each record. -/
def chainHeads (records : List KeyRecord) : Outcome TransparencyError (List (Bytes 32)) :=
  chainHeadsFrom C (genesisHead C) records

/-- `head_of`: the head over the records, the genesis head if there is none. -/
def headOf (records : List KeyRecord) : Outcome TransparencyError (Bytes 32) := do
  let heads ← chainHeads C records
  return heads.getLast?.getD (genesisHead C)

/-! ## The operator's log -/

/-- `isize::MAX`: no `Vec` holds more elements than this. -/
def isizeMax : Nat := 2 ^ 63 - 1

/--
`KeyLog`. Its `records` field is private, so every log was built by `append`: the ids in it are
the encodings of 32 bytes and it is no longer than a `Vec` can be.
-/
structure KeyLog where
  records : List KeyRecord
  encoded : ∀ r ∈ records, ∃ tkid : Bytes 32, r.tokenKeyId = String.ofList (Hex.encode tkid.val)
  bounded : records.length ≤ isizeMax

/-- `KeyLog::new`. -/
def KeyLog.new : KeyLog where
  records := []
  encoded := by simp
  bounded := by simp

/-- The record `append` pushes. -/
def KeyRecord.ofKey (seq : Nat) (pk : IssuerPublicKey) (notBefore : UInt64) : KeyRecord where
  seq := UInt64.ofNat seq
  keyVersion := pk.keyVersion
  tokenKeyId := String.ofList (Hex.encode (pk.tokenKeyId C).val)
  notBefore := notBefore

/-- `KeyLog::append`. `none` is the capacity overflow of `Vec::push`, which panics. -/
def KeyLog.append (log : KeyLog) (pk : IssuerPublicKey) (notBefore : UInt64) :
    Option (KeyLog × UInt64) :=
  if h : log.records.length + 1 ≤ isizeMax then
    some ({ records := log.records ++ [KeyRecord.ofKey C log.records.length pk notBefore]
            encoded := by
              intro r hr
              rcases List.mem_append.mp hr with hr | hr
              · exact log.encoded r hr
              · rw [List.mem_singleton.mp hr]
                exact ⟨_, rfl⟩
            bounded := by simpa using h },
      UInt64.ofNat log.records.length)
  else none

/-- **`append` adds one record at the end.** -/
theorem KeyLog.append_records {C : Crypto} {log log' : KeyLog} {pk : IssuerPublicKey}
    {notBefore seq : UInt64} (h : log.append C pk notBefore = some (log', seq)) :
    log'.records = log.records ++ [KeyRecord.ofKey C log.records.length pk notBefore] := by
  unfold KeyLog.append at h
  split at h
  · cases h
    rfl
  · cases h

/-! ## Reading -/

theorem decodeHex32_encode (field : String) (b : Bytes 32) :
    decodeHex32 field (String.ofList (Hex.encode b.val)) = .ok b := by
  simp [decodeHex32]

theorem decodeHex32_eq_ok {field text : String} {b : Bytes 32} :
    decodeHex32 field text = .ok b ↔ Hex.decodeArray 32 (trim text.toList) = some b := by
  unfold decodeHex32 Hex.decodeArray
  cases Hex.decode (trim text.toList) with
  | none => simp
  | some v => simp [Outcome.ofOption_eq_ok]

/-- The entry a pushed record reads as. -/
def LogEntry.ofKey (seq : Nat) (pk : IssuerPublicKey) (notBefore : UInt64) : LogEntry where
  seq := UInt64.ofNat seq
  keyVersion := pk.keyVersion
  tokenKeyId := pk.tokenKeyId C
  notBefore := notBefore

@[simp] theorem read_ofKey (seq : Nat) (pk : IssuerPublicKey) (notBefore : UInt64) :
    (KeyRecord.ofKey C seq pk notBefore).read = .ok (LogEntry.ofKey C seq pk notBefore) := by
  simp [KeyRecord.read, KeyRecord.tokenKeyIdBytes, KeyRecord.ofKey, decodeHex32_encode,
    LogEntry.ofKey]

theorem readAll_length : ∀ {records : List KeyRecord} {entries : List LogEntry},
    readAll records = .ok entries → entries.length = records.length
  | [], entries, h => by
    simp only [readAll, Outcome.ok.injEq] at h
    simp [← h]
  | r :: rest, entries, h => by
    simp only [readAll, Outcome.bind_eq_ok, Outcome.pure_eq_ok, Outcome.ok.injEq] at h
    obtain ⟨e, _, es, hes, rfl⟩ := h
    simp [readAll_length hes]

/-- The operator's own records can always be read. -/
theorem readAll_isOk : ∀ {records : List KeyRecord},
    (∀ r ∈ records, ∃ tkid : Bytes 32, r.tokenKeyId = String.ofList (Hex.encode tkid.val)) →
    ∃ entries, readAll records = .ok entries
  | [], _ => ⟨[], rfl⟩
  | r :: rest, h => by
    obtain ⟨tkid, ht⟩ := h r List.mem_cons_self
    obtain ⟨es, hes⟩ := readAll_isOk fun x hx => h x (List.mem_cons_of_mem _ hx)
    refine ⟨{ seq := r.seq, keyVersion := r.keyVersion, tokenKeyId := tkid,
              notBefore := r.notBefore } :: es, ?_⟩
    simp [readAll, KeyRecord.read, KeyRecord.tokenKeyIdBytes, ht, decodeHex32_encode, hes]

/-! ## The chain over entries -/

/-- One step of the chain, from the entry. -/
def entryStep (head : Bytes 32) (e : LogEntry) : Bytes 32 := step C head (C.sha256 e.leafMessage)

/-- The chain head over entries. -/
def entriesHead (entries : List LogEntry) : Bytes 32 := entries.foldl (entryStep C) (genesisHead C)

theorem chainHeadsFrom_eq : ∀ (records : List KeyRecord) (cur : Bytes 32),
    chainHeadsFrom C cur records
      = readAll records >>= fun es => .ok (HashChain.heads (entryStep C) cur es)
  | [], _ => rfl
  | r :: rest, cur => by
    simp only [chainHeadsFrom, readAll, KeyRecord.leafHash, chainHeadsFrom_eq rest]
    cases r.read with
    | ok e =>
      cases readAll rest with
      | ok es => simp [HashChain.heads, entryStep]
      | err e => rfl
      | panic => rfl
    | err e => rfl
    | panic => rfl

/-- **The heads the loop computes are the heads of the chain over the entries it reads.** -/
theorem chainHeads_eq (records : List KeyRecord) :
    chainHeads C records
      = readAll records >>= fun es => .ok (HashChain.heads (entryStep C) (genesisHead C) es) :=
  chainHeadsFrom_eq C records (genesisHead C)

theorem headOf_eq (records : List KeyRecord) :
    headOf C records = readAll records >>= fun es => .ok (entriesHead C es) := by
  unfold headOf
  rw [chainHeads_eq]
  cases readAll records with
  | err e => rfl
  | panic => rfl
  | ok es =>
    by_cases hes : es = []
    · subst hes; rfl
    · simp [HashChain.heads_getLast? es _ hes, entriesHead]

theorem headOf_isOk (log : KeyLog) : ∃ head, headOf C log.records = .ok head := by
  obtain ⟨es, hes⟩ := readAll_isOk log.encoded
  exact ⟨_, by rw [headOf_eq, hes]; rfl⟩

/-! ## Signing -/

/-- `KeyLog::head`. The `expect` in it cannot fail, since the log was built by `append`. -/
def KeyLog.head (log : KeyLog) : Bytes 32 :=
  match h : headOf C log.records with
  | .ok head => head
  | .err _ => absurd (headOf_isOk C log) (by simp [h])
  | .panic => absurd (headOf_isOk C log) (by simp [h])

theorem KeyLog.headOf_records (log : KeyLog) : headOf C log.records = .ok (log.head C) := by
  obtain ⟨head, h⟩ := headOf_isOk C log
  unfold KeyLog.head
  split
  · next head' h' => rw [h']
  · next e h' => rw [h'] at h; cases h
  · next h' => rw [h'] at h; cases h

/-- `LogSigner::public`. -/
def logSignerPublic (sk : C.faest.SigningKey) : Bytes 32 := C.faest.publicBytesFromSk sk

/-- `LogSigner::sign`. -/
def logSignerSign (sk : C.faest.SigningKey) (log : KeyLog) : SignedHead :=
  let head := log.head C
  let seq := UInt64.ofNat (log.records.length - 1)
  { seq := seq
    head := String.ofList (Hex.encode head.val)
    sig := String.ofList (Base64.encode .standard (C.faest.sign sk (sthMessage seq head))) }

/-! ## The checks of a client -/

/-- `verify_log`: the records reproduce the signed head, which is signed by the pinned key. -/
def verifyLog (p : Profile) (logPub : Bytes 32) (records : List KeyRecord)
    (signedHead : SignedHead) : Outcome TransparencyError Unit := do
  let n ← addUsize p signedHead.seq.toNat 1
  Outcome.require (n = records.length) (.seqMismatch signedHead.seq records.length)
  let head ← headOf C records
  let signed ← parseHead signedHead
  Outcome.require (head = signed) .headMismatch
  let vk ← Outcome.ofOption .badSignature (C.faest.verifyingKeyFromBytes logPub)
  let sig ← Outcome.ofOption (.hex "sig") (Base64.decode .standard (trim signedHead.sig.toList))
  Outcome.require (C.faest.verify vk (sthMessage signedHead.seq head) sig = true) .badSignature

/-- The record lookup that `verify_inclusion` and the origin share. -/
def findRecord (records : List KeyRecord) (tkid : Bytes 32) : Option KeyRecord :=
  records.find? fun r => eqIgnoreAsciiCase r.tokenKeyId.toList (Hex.encode tkid.val)

/-- `verify_inclusion`: the `seq` of the record for the key. -/
def verifyInclusion (records : List KeyRecord) (tkid : Bytes 32) :
    Outcome TransparencyError UInt64 :=
  match findRecord records tkid with
  | some r => .ok r.seq
  | none => .err .notIncluded

/-- `verify_consistency`: the head seen before reappears in the new chain. -/
def verifyConsistency (old : SignedHead) (newRecords : List KeyRecord) :
    Outcome TransparencyError Unit := do
  Outcome.require (old.seq.toNat < newRecords.length) .notConsistent
  let heads ← chainHeads C newRecords
  let signed ← parseHead old
  match heads[old.seq.toNat]? with
  | none => .panic
  | some head => Outcome.require (head = signed) .notConsistent

end EatPass
