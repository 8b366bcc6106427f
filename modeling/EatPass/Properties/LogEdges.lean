import EatPass.Core.LogChecks
import EatPass.Core.Sample

/-!
# Where the log checks part from what they check

Three checks of `core/src/transparency.rs` at the edge of their inputs.

* `verify_inclusion` compares the text of a record, while the leaf hash reads the text after
  trimming it. Both name the same key as long as a key is not published in padded text only
  (`included_iff_committed`).
* `verify_log` adds one to the served `seq`. The sum fits unless `seq` is the largest `u64`
  (`verifyLog_counts_iff`); there a release build accepts an empty log.
* No check compares the `seq` of a record with its position. The records that pass are numbered by
  position exactly when the signed head commits to such a chain (`positioned_iff`).
-/

namespace EatPass

open Infra

/-! ## The two readings of a record -/

/-- Some record commits to the key: its leaf is hashed with these bytes. -/
def Committed (records : List KeyRecord) (tkid : Bytes 32) : Prop :=
  ∃ r ∈ records, r.tokenKeyIdBytes = .ok tkid

/-- `verify_inclusion` accepts the key. -/
def Included (records : List KeyRecord) (tkid : Bytes 32) : Prop :=
  ∃ seq, verifyInclusion records tkid = .ok seq

/-- No whitespace stands around the text of the id. -/
def KeyRecord.Bare (r : KeyRecord) : Prop := trim r.tokenKeyId.toList = r.tokenKeyId.toList

/-- Every committed key has a record without padding. -/
def BareWhereCommitted (records : List KeyRecord) (tkid : Bytes 32) : Prop :=
  Committed records tkid → ∃ r ∈ records, r.tokenKeyIdBytes = .ok tkid ∧ r.Bare

theorem findRecord_isSome_iff (records : List KeyRecord) (tkid : Bytes 32) :
    (findRecord records tkid).isSome = true
      ↔ ∃ r ∈ records, Hex.decode r.tokenKeyId.toList = some tkid.val := by
  unfold findRecord
  rw [List.find?_isSome]
  simp only [Hex.eqIgnoreAsciiCase_encode_iff]

theorem included_iff_findRecord (records : List KeyRecord) (tkid : Bytes 32) :
    Included records tkid ↔ (findRecord records tkid).isSome = true := by
  unfold Included verifyInclusion
  cases findRecord records tkid with
  | none => simp
  | some r => simp

theorem KeyRecord.tokenKeyIdBytes_eq_ok {r : KeyRecord} {tkid : Bytes 32} :
    r.tokenKeyIdBytes = .ok tkid ↔ Hex.decode (trim r.tokenKeyId.toList) = some tkid.val := by
  unfold KeyRecord.tokenKeyIdBytes
  rw [decodeHex32_eq_ok, Hex.decodeArray, Option.bind_eq_some_iff]
  constructor
  · rintro ⟨bytes, hdecode, hbytes⟩
    rw [hdecode, toBytes?_eq_some.mp hbytes]
  · intro h
    exact ⟨tkid.val, h, toBytes?_val tkid⟩

/-- A text that is read as it stands has no whitespace around it. -/
theorem bare_of_decode {l : List Char} {bytes : List UInt8} (h : Hex.decode l = some bytes) :
    trim l = l := by
  refine trim_eq_self fun c hc => ?_
  -- a whitespace character is no digit in either case
  obtain ⟨n, hdigit⟩ := Hex.exists_digitValue_of_mem h hc
  exact Hex.isWhitespace_of_digitValue hdigit

/-- **A key is included exactly when a record without padding commits to it.** -/
theorem included_iff_bare (records : List KeyRecord) (tkid : Bytes 32) :
    Included records tkid ↔ ∃ r ∈ records, r.tokenKeyIdBytes = .ok tkid ∧ r.Bare := by
  rw [included_iff_findRecord, findRecord_isSome_iff]
  constructor
  · rintro ⟨r, hr, hdecode⟩
    have hbare : r.Bare := bare_of_decode hdecode
    refine ⟨r, hr, ?_, hbare⟩
    rw [KeyRecord.tokenKeyIdBytes_eq_ok, hbare]
    exact hdecode
  · rintro ⟨r, hr, hbytes, hbare⟩
    rw [KeyRecord.tokenKeyIdBytes_eq_ok, hbare] at hbytes
    exact ⟨r, hr, hbytes⟩

/--
**Inclusion and commitment name the same key exactly when a committed key has a record without
padding.** Records that cannot be read commit to nothing and are not included, so the statement
needs no hypothesis on them.
-/
theorem included_iff_committed (records : List KeyRecord) (tkid : Bytes 32) :
    (Included records tkid ↔ Committed records tkid) ↔ BareWhereCommitted records tkid := by
  rw [included_iff_bare]
  constructor
  · intro h hcommitted
    exact h.mpr hcommitted
  · intro h
    refine ⟨?_, h⟩
    rintro ⟨r, hr, hbytes, _⟩
    exact ⟨r, hr, hbytes⟩

/-- A record for the key whose text has the characters before the digits. -/
def paddedRecord (padding : List Char) (tkid : Bytes 32) : KeyRecord where
  seq := 0
  keyVersion := 1
  tokenKeyId := String.ofList (padding ++ Hex.encode tkid.val)
  notBefore := 0

theorem trim_blank_encode (tkid : Bytes 32) :
    trim (' ' :: Hex.encode tkid.val) = Hex.encode tkid.val := by
  rw [trim_cons_of_isWhitespace rfl, Hex.trim_encode]

/-- A blank before the digits is not seen by the leaf hash. -/
theorem tokenKeyIdBytes_blank (tkid : Bytes 32) :
    (paddedRecord [' '] tkid).tokenKeyIdBytes = .ok tkid := by
  rw [KeyRecord.tokenKeyIdBytes_eq_ok]
  simp [paddedRecord, trim_blank_encode]

theorem tokenKeyIdBytes_plain (tkid : Bytes 32) :
    (paddedRecord [] tkid).tokenKeyIdBytes = .ok tkid := by
  rw [KeyRecord.tokenKeyIdBytes_eq_ok]
  simp [paddedRecord]

theorem headOf_singleton (C : Crypto) {r : KeyRecord} {tkid : Bytes 32}
    (h : r.tokenKeyIdBytes = .ok tkid) :
    headOf C [r] = .ok (entriesHead C [⟨r.seq, r.keyVersion, tkid, r.notBefore⟩]) := by
  rw [headOf_eq, readAll, KeyRecord.read, h]
  rfl

theorem not_bare_blank (tkid : Bytes 32) : ¬ (paddedRecord [' '] tkid).Bare := by
  unfold KeyRecord.Bare
  simp [paddedRecord, trim_blank_encode]

/--
A blank before the digits: the two logs have one head and commit to the key, and only the one
without the blank includes it.
-/
theorem padded_record_not_included :
    (∃ head, headOf Crypto.sample [paddedRecord [' '] sampleSigningKey] = .ok head ∧
      headOf Crypto.sample [paddedRecord [] sampleSigningKey] = .ok head) ∧
    Committed [paddedRecord [' '] sampleSigningKey] sampleSigningKey ∧
    ¬ Included [paddedRecord [' '] sampleSigningKey] sampleSigningKey ∧
    Included [paddedRecord [] sampleSigningKey] sampleSigningKey := by
  have hblank := tokenKeyIdBytes_blank sampleSigningKey
  have hplain := tokenKeyIdBytes_plain sampleSigningKey
  refine ⟨⟨_, headOf_singleton _ hblank, headOf_singleton _ hplain⟩,
    ⟨_, List.mem_singleton_self _, hblank⟩, ?_, ?_⟩
  · rw [included_iff_bare]
    rintro ⟨r, hr, -, hbare⟩
    rw [List.mem_singleton.mp hr] at hbare
    exact not_bare_blank _ hbare
  · rw [included_iff_bare]
    refine ⟨_, List.mem_singleton_self _, hplain, ?_⟩
    simp [KeyRecord.Bare, paddedRecord]

/-! ## The count of the records -/

variable (C : Crypto)

/-- `signed_head.seq as usize + 1` is the sum of the two numbers. -/
def CountFits (p : Profile) (sth : SignedHead) : Prop :=
  (addUsize p sth.seq.toNat 1 : Outcome TransparencyError Nat) = .ok (sth.seq.toNat + 1)

/-- The count is computed without overflow, and a log that passes has that many records. -/
def CountsRecords (p : Profile) (logPub : Bytes 32) (records : List KeyRecord)
    (sth : SignedHead) : Prop :=
  CountFits p sth ∧
    (verifyLog C p logPub records sth = .ok () → records.length = sth.seq.toNat + 1)

theorem countFits_iff (p : Profile) (sth : SignedHead) :
    CountFits p sth ↔ sth.seq.toNat < 2 ^ 64 - 1 := by
  have hlt := sth.seq.toNat_lt
  unfold CountFits
  constructor
  · intro h
    have hmod := addUsize_eq_ok h
    by_contra hge
    omega
  · intro h
    exact addUsize_of_lt p (by omega)

/-- **`verify_log` counts the records exactly when `seq` is not the largest `u64`.** -/
theorem verifyLog_counts_iff (p : Profile) (logPub : Bytes 32) (records : List KeyRecord)
    (sth : SignedHead) :
    CountsRecords C p logPub records sth ↔ sth.seq.toNat < 2 ^ 64 - 1 := by
  unfold CountsRecords
  rw [countFits_iff]
  constructor
  · rintro ⟨hlt, _⟩
    exact hlt
  · intro hlt
    refine ⟨hlt, fun hok => ?_⟩
    have hlen := (verifyLog_ok hok).1
    rw [hlen, Nat.mod_eq_of_lt (by omega)]

/-- The head of the empty chain, signed by the operator for the largest `seq`. -/
def genesisAtMax (sk : C.faest.SigningKey) : SignedHead where
  seq := UInt64.ofNat (2 ^ 64 - 1)
  head := String.ofList (Hex.encode (genesisHead C).val)
  sig := String.ofList (Base64.encode .standard
    (C.faest.sign sk (sthMessage (UInt64.ofNat (2 ^ 64 - 1)) (genesisHead C))))

theorem genesisAtMax_seq (sk : C.faest.SigningKey) :
    (genesisAtMax C sk).seq.toNat = 2 ^ 64 - 1 := by
  simp [genesisAtMax]

/-- **A release build accepts the empty log under that head, whoever the operator is.** -/
theorem verifyLog_genesisAtMax (hf : C.faest.Complete) (sk : C.faest.SigningKey) :
    verifyLog C .release (logSignerPublic C sk) [] (genesisAtMax C sk) = .ok () := by
  obtain ⟨vk, hvk, hsig⟩ := hf sk
  have hadd : (addUsize .release (genesisAtMax C sk).seq.toNat 1 : Outcome TransparencyError Nat)
      = .ok 0 := by
    rw [genesisAtMax_seq]
    rfl
  have hhead : parseHead (genesisAtMax C sk) = .ok (genesisHead C) := decodeHex32_encode _ _
  have hdec : Base64.decode .standard (trim (genesisAtMax C sk).sig.toList)
      = some (C.faest.sign sk (sthMessage (genesisAtMax C sk).seq (genesisHead C))) := by
    simp [genesisAtMax]
  have hempty : headOf C [] = .ok (genesisHead C) := rfl
  simp only [verifyLog, hadd, Outcome.ok_bind, List.length_nil, Outcome.require_pos, hempty, hhead,
    logSignerPublic, hvk, Outcome.ofOption_some, hdec, hsig]

/-- A debug build panics at the addition. -/
theorem verifyLog_genesisAtMax_debug (sk : C.faest.SigningKey) (logPub : Bytes 32) :
    verifyLog C .debug logPub [] (genesisAtMax C sk) = .panic := by
  have hadd : (addUsize .debug (genesisAtMax C sk).seq.toNat 1 : Outcome TransparencyError Nat)
      = .panic := by
    rw [genesisAtMax_seq]
    rfl
  simp only [verifyLog, hadd, Outcome.panic_bind]

/-- The empty log under the head for the largest `seq`: a panic, or an accepted empty log. -/
theorem empty_log_at_max :
    verifyLog Crypto.sample .debug (logSignerPublic Crypto.sample sampleSigningKey) []
      (genesisAtMax Crypto.sample sampleSigningKey) = .panic ∧
    verifyLog Crypto.sample .release (logSignerPublic Crypto.sample sampleSigningKey) []
      (genesisAtMax Crypto.sample sampleSigningKey) = .ok () ∧
    ([] : List KeyRecord).length
      ≠ (genesisAtMax Crypto.sample sampleSigningKey).seq.toNat + 1 :=
  ⟨verifyLog_genesisAtMax_debug _ _ _, verifyLog_genesisAtMax _ Faest.sample_complete _, by simp⟩

/-! ## The positions of the records -/

/-- Every record carries its position, and `verify_inclusion` returns the position of the record it
has found. -/
structure Positioned (records : List KeyRecord) : Prop where
  seq : ∀ (i : Nat) (r : KeyRecord), records[i]? = some r → r.seq.toNat = i
  inclusion : ∀ tkid seq, verifyInclusion records tkid = .ok seq →
    ∃ r, findRecord records tkid = some r ∧ records[seq.toNat]? = some r

/-- The entries are numbered by position, as `append` numbers them. -/
def Numbered (entries : List LogEntry) : Prop :=
  ∀ (i : Nat) (e : LogEntry), entries[i]? = some e → e.seq.toNat = i

/-- The head is one of a chain of so many entries that are numbered by position. The messages of
the chain are among those that are considered. -/
def CommitsToPositions (M : Set (List UInt8)) (count : Nat) (sth : SignedHead) : Prop :=
  ∃ es, Numbered es ∧ es.length = count ∧ (∀ m ∈ chainMessages C es, m ∈ M) ∧
    parseHead sth = .ok (entriesHead C es)

theorem readAll_seq : ∀ {records : List KeyRecord} {entries : List LogEntry},
    readAll records = .ok entries → entries.map LogEntry.seq = records.map KeyRecord.seq
  | [], entries, h => by
    cases h
    rfl
  | r :: rest, entries, h => by
    simp only [readAll, KeyRecord.read, Outcome.bind_eq_ok, Outcome.pure_eq_ok,
      Outcome.ok.injEq] at h
    obtain ⟨_, ⟨tkid, _, rfl⟩, es, hes, rfl⟩ := h
    rw [List.map_cons, List.map_cons, readAll_seq hes]

/-- Records are positioned exactly when the entries that are read of them are numbered. -/
theorem positioned_iff_numbered {records : List KeyRecord} {es : List LogEntry}
    (hes : readAll records = .ok es) : Positioned records ↔ Numbered es := by
  have hseq : ∀ i : Nat, es[i]?.map LogEntry.seq = records[i]?.map KeyRecord.seq := by
    intro i
    rw [← List.getElem?_map, ← List.getElem?_map, readAll_seq hes]
  constructor
  · intro h i e he
    have hi := hseq i
    rw [he, Option.map_some] at hi
    obtain ⟨r, hr, hrseq⟩ := Option.map_eq_some_iff.mp hi.symm
    rw [← hrseq]
    exact h.seq i r hr
  · intro h
    have hposition : ∀ (i : Nat) (r : KeyRecord), records[i]? = some r → r.seq.toNat = i := by
      intro i r hr
      have hi := hseq i
      rw [hr, Option.map_some] at hi
      obtain ⟨e, he, heseq⟩ := Option.map_eq_some_iff.mp hi
      rw [← heseq]
      exact h i e he
    refine ⟨hposition, fun tkid seq hok => ?_⟩
    unfold verifyInclusion at hok
    cases hfind : findRecord records tkid with
    | none =>
      rw [hfind] at hok
      cases hok
    | some r =>
      rw [hfind] at hok
      cases hok
      obtain ⟨i, hi⟩ := List.getElem?_of_mem (List.mem_of_find?_eq_some hfind)
      exact ⟨r, rfl, by rw [hposition i r hi, hi]⟩

/--
**The records that pass `verify_log` carry their positions exactly when the signed head commits to
a chain that is numbered by position.** The operator may sign any chain, and nothing but its head
is compared; no two of the messages considered collide.
-/
theorem positioned_iff {p : Profile} {logPub : Bytes 32} {records : List KeyRecord}
    {sth : SignedHead} {M : Set (List UInt8)} (hM : C.CollisionFree M)
    (hrecords : ∀ es, readAll records = .ok es → ∀ m ∈ chainMessages C es, m ∈ M)
    (hok : verifyLog C p logPub records sth = .ok ()) :
    Positioned records ↔ CommitsToPositions C M records.length sth := by
  obtain ⟨_, es, hes, hhead⟩ := verifyLog_ok hok
  rw [positioned_iff_numbered hes]
  constructor
  · exact fun hnumbered => ⟨es, hnumbered, readAll_length hes, hrecords es hes, hhead⟩
  · rintro ⟨fs, hnumbered, hlen, hfs, hfsHead⟩
    -- the two chains have one head and one length, so they are the same
    have hheads : entriesHead C es = entriesHead C fs := Outcome.ok.inj (hhead.symm.trans hfsHead)
    have heq : es = fs := entries_eq_of_head_eq C hM (hrecords es hes) hfs
      (by rw [readAll_length hes, hlen]) hheads
    rwa [heq]

/-- What `append` pushes is numbered by position. -/
theorem seq_entriesFrom : ∀ {keys : List (IssuerPublicKey × UInt64)} {n i : Nat} {e : LogEntry},
    n + keys.length ≤ 2 ^ 64 → (entriesFrom C n keys)[i]? = some e → e.seq.toNat = n + i
  | [], _, _, _, _, h => by cases h
  | (pk, notBefore) :: rest, n, 0, e, hlen, h => by
    cases h
    rw [List.length_cons] at hlen
    simp only [LogEntry.ofKey, UInt64.toNat_ofNat']
    omega
  | (pk, notBefore) :: rest, n, i + 1, e, hlen, h => by
    rw [List.length_cons] at hlen
    rw [seq_entriesFrom (n := n + 1) (by omega) h]
    omega

/-- **What the operator's own log signs commits to positions.** -/
theorem commitsToPositions_ofKeys (sk : C.faest.SigningKey) {M : Set (List UInt8)}
    (keys : List (IssuerPublicKey × UInt64)) (hlen : keys.length ≤ isizeMax)
    (hM : ∀ m ∈ chainMessages C (entriesFrom C 0 keys), m ∈ M) :
    CommitsToPositions C M keys.length (logSignerSign C sk (.ofKeys C keys hlen)) := by
  have hes := readAll_recordsFrom C keys 0
  refine ⟨entriesFrom C 0 keys, fun i e h => ?_, ?_, hM, ?_⟩
  · rw [seq_entriesFrom C (by simp only [isizeMax] at hlen; omega) h, Nat.zero_add]
  · rw [readAll_length hes, recordsFrom_length]
  · rw [@logSignerSign_eq C sk (.ofKeys C keys hlen) _ hes]
    exact parseHead_signChain C sk _

/-- A log of one key. -/
def oneKey : List (IssuerPublicKey × UInt64) :=
  [((Issuer.generate Crypto.sample [1] 1).public, 0)]

/-- A log of two keys, the second one after a rotation. -/
def twoKeys : List (IssuerPublicKey × UInt64) :=
  oneKey ++ [((Issuer.generate Crypto.sample [2] 2).public, 3600)]

/-- The log that the operator has built for the keys is numbered by position. -/
theorem positioned_iff_twoKeys : Positioned (recordsFrom Crypto.sample 0 twoKeys) := by
  have hlen : twoKeys.length ≤ isizeMax := by decide
  let es := entriesFrom Crypto.sample 0 twoKeys
  have hM : Crypto.sample.CollisionFree { m | m ∈ chainMessages Crypto.sample es } :=
    Crypto.collisionFree_of_list (fun _ hm => hm) (by decide +kernel)
  have hok := verifyLog_sign Crypto.sample Faest.sample_complete .release sampleSigningKey
    (.ofKeys Crypto.sample twoKeys hlen) (List.cons_ne_nil _ _)
  refine (positioned_iff Crypto.sample hM (fun fs hfs m hm => ?_) hok).mpr
    (commitsToPositions_ofKeys Crypto.sample sampleSigningKey twoKeys hlen fun _ hm => hm)
  have hread : readAll (recordsFrom Crypto.sample 0 twoKeys) = .ok es := readAll_recordsFrom _ _ _
  rw [Outcome.ok.inj (hread.symm.trans hfs)]
  exact hm

/-- A record for the key that says it is the sixth. -/
def sixthRecord (tkid : Bytes 32) : KeyRecord := { paddedRecord [] tkid with seq := 5 }

/-- A log of that record alone, signed by the operator: it passes, and `verify_inclusion` returns
the position 5 for its first and only record. -/
theorem misnumbered_log :
    verifyLog Crypto.sample .release (logSignerPublic Crypto.sample sampleSigningKey)
        [sixthRecord sampleSigningKey]
        (signChain Crypto.sample sampleSigningKey [⟨5, 1, sampleSigningKey, 0⟩]) = .ok () ∧
      verifyInclusion [sixthRecord sampleSigningKey] sampleSigningKey = .ok 5 ∧
      ¬ Positioned [sixthRecord sampleSigningKey] := by
  have hread : readAll [sixthRecord sampleSigningKey] = .ok [⟨5, 1, sampleSigningKey, 0⟩] := by
    have htkid : (sixthRecord sampleSigningKey).tokenKeyIdBytes = .ok sampleSigningKey :=
      tokenKeyIdBytes_plain sampleSigningKey
    rw [readAll, KeyRecord.read, htkid]
    rfl
  refine ⟨verifyLog_signChain _ Faest.sample_complete _ _ hread (List.cons_ne_nil _ _) (by decide),
    by decide +kernel, fun h => ?_⟩
  exact absurd (h.seq 0 _ rfl) (by decide)

end EatPass
