import EatPass.Core.Transparency

/-!
# What the checks of the key log establish

One lemma per check, in both directions where a caller needs both. After this file no proof
unfolds `verifyLog` or `verifyConsistency`.

* `verifyLog_ok`, `verifyConsistency_eq_ok` — what a passed check says about the entries
* `verifyLog_signChain`, `verifyConsistency_sign` — the checks pass on what the operator signs
* `entries_eq_of_head_eq` — a head determines the entries, as long as no messages collide
-/

namespace EatPass

open Infra

variable (C : Crypto)

/-! ## Passed checks -/

/-- **What `verify_log` accepts**: as many records as the `seq` counts, which are read and have the
signed head, and a signature on it under the pinned key. -/
theorem verifyLog_eq_ok {C : Crypto} {p : Profile} {logPub : Bytes 32} {records : List KeyRecord}
    {sth : SignedHead} {u : Unit} :
    verifyLog C p logPub records sth = .ok u ↔
      (addUsize p sth.seq.toNat 1 : Outcome TransparencyError Nat) = .ok records.length ∧
      ∃ es, readAll records = .ok es ∧ parseHead sth = .ok (entriesHead C es) ∧
        ∃ vk, C.faest.verifyingKeyFromBytes logPub = some vk ∧
          ∃ sig, Base64.decode .standard (trim sth.sig.toList) = some sig ∧
            C.faest.verify vk (sthMessage sth.seq (entriesHead C es)) sig = true := by
  simp only [verifyLog, headOf_eq, Outcome.bind_eq_ok, Outcome.require_eq_ok,
    Outcome.ofOption_eq_ok, Outcome.ok.injEq]
  constructor
  · rintro ⟨_, hcount, _, rfl, _, ⟨es, hes, rfl⟩, _, hhead, _, rfl, vk, hvk, sig, hdec, hsig⟩
    exact ⟨hcount, es, hes, hhead, vk, hvk, sig, hdec, hsig⟩
  · rintro ⟨hcount, es, hes, hhead, vk, hvk, sig, hdec, hsig⟩
    exact ⟨_, hcount, (), rfl, _, ⟨es, hes, rfl⟩, _, hhead, (), rfl, vk, hvk, sig, hdec, hsig⟩

/-- The served records were read, the signed head is theirs, and the count fits its `seq`. -/
theorem verifyLog_ok {C : Crypto} {p : Profile} {logPub : Bytes 32} {records : List KeyRecord}
    {sth : SignedHead} {u : Unit} (h : verifyLog C p logPub records sth = .ok u) :
    records.length = (sth.seq.toNat + 1) % 2 ^ 64 ∧
      ∃ es, readAll records = .ok es ∧ parseHead sth = .ok (entriesHead C es) := by
  obtain ⟨hcount, es, hes, hhead, _⟩ := verifyLog_eq_ok.mp h
  exact ⟨addUsize_eq_ok hcount, es, hes, hhead⟩

/-- The head of the first entries reappears in the chain. -/
theorem verifyConsistency_eq_ok {C : Crypto} {old : SignedHead} {records : List KeyRecord}
    {u : Unit} :
    verifyConsistency C old records = .ok u ↔
      ∃ es, readAll records = .ok es ∧ old.seq.toNat < es.length ∧
        parseHead old = .ok (entriesHead C (es.take (old.seq.toNat + 1))) := by
  simp only [verifyConsistency, Outcome.bind_eq_ok, Outcome.require_eq_ok, chainHeads_eq]
  constructor
  · rintro ⟨_, hlt, heads, ⟨es, hes, he⟩, signed, hsigned, hcmp⟩
    cases he
    have hlen := readAll_length hes
    have hlt' : old.seq.toNat < es.length := by omega
    rw [HashChain.heads_getElem? es _ _ hlt'] at hcmp
    simp only [Outcome.require_eq_ok] at hcmp
    exact ⟨es, hes, hlt', by rw [hsigned, ← hcmp]; rfl⟩
  · rintro ⟨es, hes, hlt, hsigned⟩
    have hlen := readAll_length hes
    refine ⟨(), by omega, _, ⟨es, hes, rfl⟩, _, hsigned, ?_⟩
    rw [HashChain.heads_getElem? es _ _ hlt]
    simp only [Outcome.require_eq_ok]
    rfl

/-! ## The operator's own heads -/

theorem parseHead_sign (sk : C.faest.SigningKey) (log : KeyLog) :
    parseHead (logSignerSign C sk log) = .ok (log.head C) :=
  decodeHex32_encode _ _

theorem seq_sign (sk : C.faest.SigningKey) (log : KeyLog) :
    (logSignerSign C sk log).seq.toNat = log.records.length - 1 := by
  have hb := log.bounded
  simp only [logSignerSign, UInt64.toNat_ofNat']
  refine Nat.mod_eq_of_lt ?_
  simp only [isizeMax] at hb
  omega

/-- The operator's head is the head of the entries its log reads as. -/
theorem KeyLog.head_eq {log : KeyLog} {es : List LogEntry} (h : readAll log.records = .ok es) :
    log.head C = entriesHead C es := by
  have hh := log.headOf_records C
  rw [headOf_eq, h] at hh
  exact (Outcome.ok.inj hh).symm

/-- What an operator may sign: the head of any chain, under the `seq` of its last entry. -/
def signChain (sk : C.faest.SigningKey) (entries : List LogEntry) : SignedHead where
  seq := UInt64.ofNat (entries.length - 1)
  head := String.ofList (Hex.encode (entriesHead C entries).val)
  sig := String.ofList (Base64.encode .standard
    (C.faest.sign sk (sthMessage (UInt64.ofNat (entries.length - 1)) (entriesHead C entries))))

theorem parseHead_signChain (sk : C.faest.SigningKey) (entries : List LogEntry) :
    parseHead (signChain C sk entries) = .ok (entriesHead C entries) :=
  decodeHex32_encode _ _

/-- **Whatever chain the operator signs, its records pass `verify_log`.** -/
theorem verifyLog_signChain (hf : C.faest.Complete) (p : Profile) (sk : C.faest.SigningKey)
    {records : List KeyRecord} {es : List LogEntry} (hes : readAll records = .ok es)
    (hne : records ≠ []) (hlen : records.length < 2 ^ 64) :
    verifyLog C p (logSignerPublic C sk) records (signChain C sk es) = .ok () := by
  obtain ⟨vk, hvk, hsig⟩ := hf sk
  have hpos : 0 < records.length := List.length_pos_iff.mpr hne
  have hesLen := readAll_length hes
  have hseq : (signChain C sk es).seq.toNat = records.length - 1 := by
    rw [signChain, UInt64.toNat_ofNat', hesLen, Nat.mod_eq_of_lt (by omega)]
  have hadd : (addUsize p (signChain C sk es).seq.toNat 1 : Outcome TransparencyError Nat)
      = .ok records.length := by
    rw [hseq, addUsize_of_lt p (by omega)]
    congr 1
    omega
  have hhead : headOf C records = .ok (entriesHead C es) := by
    rw [headOf_eq, hes, Outcome.ok_bind]
  have hdec : Base64.decode .standard (trim (signChain C sk es).sig.toList)
      = some (C.faest.sign sk (sthMessage (signChain C sk es).seq (entriesHead C es))) := by
    simp [signChain]
  simp only [verifyLog, hadd, Outcome.ok_bind, Outcome.require_pos, hhead, parseHead_signChain,
    logSignerPublic, hvk, Outcome.ofOption_some, hdec, hsig]

/-- `LogSigner::sign` signs the chain that its log reads as. -/
theorem logSignerSign_eq (sk : C.faest.SigningKey) {log : KeyLog} {es : List LogEntry}
    (hes : readAll log.records = .ok es) : logSignerSign C sk log = signChain C sk es := by
  unfold logSignerSign signChain
  rw [log.head_eq C hes, readAll_length hes]

/-- **A log that the operator signed passes `verify_log` under the operator's public key.** -/
theorem verifyLog_sign (hf : C.faest.Complete) (p : Profile) (sk : C.faest.SigningKey)
    (log : KeyLog) (hne : log.records ≠ []) :
    verifyLog C p (logSignerPublic C sk) log.records (logSignerSign C sk log) = .ok () := by
  obtain ⟨es, hes⟩ := readAll_isOk log.encoded
  have hb := log.bounded
  simp only [isizeMax] at hb
  rw [logSignerSign_eq C sk hes]
  exact verifyLog_signChain C hf p sk hes hne (by omega)

theorem readAll_append : ∀ {xs ys : List KeyRecord} {es fs : List LogEntry},
    readAll xs = .ok es → readAll ys = .ok fs → readAll (xs ++ ys) = .ok (es ++ fs)
  | [], ys, es, fs, hx, hy => by
    simp only [readAll, Outcome.ok.injEq] at hx
    simpa [← hx] using hy
  | r :: xs, ys, es, fs, hx, hy => by
    simp only [readAll, Outcome.bind_eq_ok, Outcome.pure_eq_ok, Outcome.ok.injEq] at hx
    obtain ⟨e, he, es', hes, rfl⟩ := hx
    simp [readAll, he, readAll_append hes hy]

/-- **The head signed over a log is consistent with every extension of that log.** -/
theorem verifyConsistency_sign (sk : C.faest.SigningKey) {old new : KeyLog}
    (hne : old.records ≠ []) (hpre : old.records <+: new.records) :
    verifyConsistency C (logSignerSign C sk old) new.records = .ok () := by
  obtain ⟨rest, hrest⟩ := hpre
  obtain ⟨es, hes⟩ := readAll_isOk old.encoded
  have hread : ∃ fs, readAll rest = .ok fs :=
    readAll_isOk fun r hr => new.encoded r (hrest ▸ List.mem_append_right _ hr)
  obtain ⟨fs, hfs⟩ := hread
  have hpos : 0 < old.records.length := List.length_pos_iff.mpr hne
  have hlen := readAll_length hes
  rw [verifyConsistency_eq_ok]
  refine ⟨es ++ fs, hrest ▸ readAll_append hes hfs, ?_, ?_⟩
  · rw [seq_sign, List.length_append]
    omega
  · rw [parseHead_sign, KeyLog.head_eq C hes, seq_sign,
      show old.records.length - 1 + 1 = es.length by omega, List.take_left]

/-! ## Logs as lists of published keys -/

/-- The records `append` pushes for the keys, from position `n` on. -/
def recordsFrom (n : Nat) : List (IssuerPublicKey × UInt64) → List KeyRecord
  | [] => []
  | (pk, notBefore) :: rest => KeyRecord.ofKey C n pk notBefore :: recordsFrom (n + 1) rest

/-- The entries those records read as. -/
def entriesFrom (n : Nat) : List (IssuerPublicKey × UInt64) → List LogEntry
  | [] => []
  | (pk, notBefore) :: rest => LogEntry.ofKey C n pk notBefore :: entriesFrom (n + 1) rest

@[simp] theorem recordsFrom_length : ∀ (keys : List (IssuerPublicKey × UInt64)) (n : Nat),
    (recordsFrom C n keys).length = keys.length
  | [], _ => rfl
  | _ :: rest, n => by simp [recordsFrom, recordsFrom_length rest]

theorem recordsFrom_append : ∀ (keys more : List (IssuerPublicKey × UInt64)) (n : Nat),
    recordsFrom C n (keys ++ more)
      = recordsFrom C n keys ++ recordsFrom C (n + keys.length) more
  | [], more, n => by simp [recordsFrom]
  | (pk, nb) :: rest, more, n => by
    simp only [List.cons_append, recordsFrom, recordsFrom_append rest more, List.length_cons]
    rw [show n + 1 + rest.length = n + (rest.length + 1) by omega]

theorem recordsFrom_mono {keys more : List (IssuerPublicKey × UInt64)} (h : keys <+: more)
    (n : Nat) : recordsFrom C n keys <+: recordsFrom C n more := by
  obtain ⟨rest, rfl⟩ := h
  exact ⟨_, (recordsFrom_append C keys rest n).symm⟩

theorem readAll_recordsFrom : ∀ (keys : List (IssuerPublicKey × UInt64)) (n : Nat),
    readAll (recordsFrom C n keys) = .ok (entriesFrom C n keys)
  | [], _ => rfl
  | (pk, nb) :: rest, n => by
    simp [recordsFrom, readAll, entriesFrom, readAll_recordsFrom rest]

theorem encoded_recordsFrom : ∀ (keys : List (IssuerPublicKey × UInt64)) (n : Nat),
    ∀ r ∈ recordsFrom C n keys,
      ∃ tkid : Bytes 32, r.tokenKeyId = String.ofList (Hex.encode tkid.val)
  | [], _, r, h => by simp [recordsFrom] at h
  | (pk, nb) :: rest, n, r, h => by
    rcases List.mem_cons.mp h with rfl | h
    · exact ⟨_, rfl⟩
    · exact encoded_recordsFrom rest (n + 1) r h

/-- **A published key is included.** -/
theorem verifyInclusion_recordsFrom : ∀ {keys : List (IssuerPublicKey × UInt64)}
    {pk : IssuerPublicKey} {notBefore : UInt64} (n : Nat), (pk, notBefore) ∈ keys →
    ∃ seq, verifyInclusion (recordsFrom C n keys) (pk.tokenKeyId C) = .ok seq
  | key :: rest, pk, notBefore, n, h => by
    unfold verifyInclusion
    cases hfind : findRecord (recordsFrom C n (key :: rest)) (pk.tokenKeyId C) with
    | some r => exact ⟨r.seq, rfl⟩
    | none =>
      -- no record matches, neither the first one nor one of the others
      have hall := List.find?_eq_none.mp hfind
      rcases List.mem_cons.mp h with rfl | hrest
      · exact absurd (hall _ List.mem_cons_self) (by simp [KeyRecord.ofKey])
      · obtain ⟨seq, hseq⟩ := verifyInclusion_recordsFrom (n + 1) hrest
        have hnone : findRecord (recordsFrom C (n + 1) rest) (pk.tokenKeyId C) = none :=
          List.find?_eq_none.mpr fun r hr => hall r (List.mem_cons_of_mem _ hr)
        rw [verifyInclusion, hnone] at hseq
        cases hseq

/-- The log into which the keys were appended in order. -/
def KeyLog.ofKeys (keys : List (IssuerPublicKey × UInt64)) (h : keys.length ≤ isizeMax) :
    KeyLog where
  records := recordsFrom C 0 keys
  encoded := encoded_recordsFrom C keys 0
  bounded := by simpa using h

/-! ## A head determines the entries -/

/-- The messages that are hashed to compute the head over the entries. -/
def chainMessages (entries : List LogEntry) : List (List UInt8) :=
  (HashChain.visits (entryStep C) (genesisHead C) entries).flatMap fun (head, e) =>
    [e.leafMessage, stepMessage head (C.sha256 e.leafMessage)]

theorem leafMessage_mem_chainMessages {entries : List LogEntry} {p : Bytes 32 × LogEntry}
    (h : p ∈ HashChain.visits (entryStep C) (genesisHead C) entries) :
    p.2.leafMessage ∈ chainMessages C entries :=
  List.mem_flatMap.mpr ⟨p, h, by simp⟩

theorem stepMessage_mem_chainMessages {entries : List LogEntry} {p : Bytes 32 × LogEntry}
    (h : p ∈ HashChain.visits (entryStep C) (genesisHead C) entries) :
    stepMessage p.1 (C.sha256 p.2.leafMessage) ∈ chainMessages C entries :=
  List.mem_flatMap.mpr ⟨p, h, by simp⟩

theorem chainMessages_take_subset (entries : List LogEntry) (n : Nat) :
    chainMessages C (entries.take n) ⊆ chainMessages C entries := by
  intro m hm
  obtain ⟨p, hp, hm⟩ := List.mem_flatMap.mp hm
  exact List.mem_flatMap.mpr ⟨p, HashChain.visits_take_subset entries _ n hp, hm⟩

theorem leafMessage_injective : Function.Injective LogEntry.leafMessage := by
  intro e f h
  have h1 := List.append_cancel_left h
  obtain ⟨hseq, h2⟩ := List.append_inj h1 (by simp)
  obtain ⟨hver, h3⟩ := List.append_inj h2 (by simp)
  obtain ⟨hid, hnb⟩ := append_inj_bytes h3
  cases e
  cases f
  simp only [LogEntry.mk.injEq]
  exact ⟨beBytes_inj_u64 hseq, beBytes_inj_u32 hver, hid, beBytes_inj_u64 hnb⟩

theorem stepMessage_inj {a b c d : Bytes 32} (h : stepMessage a b = stepMessage c d) :
    a = c ∧ b = d := by
  obtain ⟨h1, h2⟩ := append_inj_bytes (List.append_cancel_left h)
  exact ⟨h1, Subtype.ext h2⟩

/-- Where no messages collide, the step of the chain is injective on what it visits. -/
theorem injOn_entryStep {S : Set (Bytes 32 × LogEntry)} {M : Set (List UInt8)}
    (hM : C.CollisionFree M)
    (hleaf : ∀ p ∈ S, p.2.leafMessage ∈ M)
    (hstep : ∀ p ∈ S, stepMessage p.1 (C.sha256 p.2.leafMessage) ∈ M) :
    Set.InjOn (fun p => entryStep C p.1 p.2) S := by
  intro p hp q hq h
  obtain ⟨hhead, hhash⟩ := stepMessage_inj (hM (hstep p hp) (hstep q hq) h)
  have hentry := leafMessage_injective (hM (hleaf p hp) (hleaf q hq) hhash)
  exact Prod.ext hhead hentry

/--
**A head determines the entries below it.** Both chains are as long and their messages do not
collide, so peeling the equal heads gives equal entries.
-/
theorem entries_eq_of_head_eq {M : Set (List UInt8)} (hM : C.CollisionFree M)
    {es fs : List LogEntry} (hes : ∀ m ∈ chainMessages C es, m ∈ M)
    (hfs : ∀ m ∈ chainMessages C fs, m ∈ M)
    (hlen : es.length = fs.length) (h : entriesHead C es = entriesHead C fs) : es = fs := by
  let S : Set (Bytes 32 × LogEntry) :=
    { p | p.2.leafMessage ∈ M ∧ stepMessage p.1 (C.sha256 p.2.leafMessage) ∈ M }
  have hinj : Set.InjOn (fun p => entryStep C p.1 p.2) S :=
    injOn_entryStep C hM (fun p hp => hp.1) (fun p hp => hp.2)
  refine (HashChain.eq_of_foldl_eq hinj es fs _ _ hlen ?_ ?_ h).2
  · exact fun p hp => ⟨hes _ (leafMessage_mem_chainMessages C hp),
      hes _ (stepMessage_mem_chainMessages C hp)⟩
  · exact fun p hp => ⟨hfs _ (leafMessage_mem_chainMessages C hp),
      hfs _ (stepMessage_mem_chainMessages C hp)⟩

end EatPass
