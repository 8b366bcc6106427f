import EatPass.Core.LogChecks
import EatPass.Cli.Wire

/-!
# The client

The part of `cli/src/client.rs` that decides whether the served key is used, the
`--kt-known-head` argument of `cli/src/main.rs` that carries the head from one run to the next,
and the request to the attester. The only state between two runs is the line the first one prints.

Error texts are those of the source without the part that a library error appends to them.
-/

namespace EatPass

open Infra

/-- The `<seq>:<head>` text of the line `kt-head` that a run prints. -/
def ktHeadLine (sth : SignedHead) : String :=
  String.ofList (showU64 sth.seq ++ ':' :: sth.head.toList)

/-- `parse_hex32` of `main.rs`. -/
def parseHex32 (text : List Char) (what : String) : Outcome String (Bytes 32) := do
  let bytes ← Outcome.ofOption (what ++ ": bad hex") (Hex.decode (trim text))
  Outcome.ofOption (what ++ ": expected 32 bytes (64 hex chars)") (toBytes? 32 bytes)

theorem parseHex32_eq_ok {text : List Char} {what : String} {b : Bytes 32} :
    parseHex32 text what = .ok b ↔ Hex.decode (trim text) = some b.val := by
  simp only [parseHex32, Outcome.bind_eq_ok, Outcome.ofOption_eq_ok, toBytes?_eq_some,
    exists_eq_right]

/-- `parse_known_head`. The head is kept as text, without a signature. -/
def parseKnownHead (s : String) : Outcome String SignedHead := do
  let (seq, head) ← Outcome.ofOption "kt-known-head must be <seq>:<head-hex>"
    (splitOnce ':' (trim s.toList))
  let seq ← Outcome.ofOption "kt-known-head seq" (parseU64 seq)
  let _ ← parseHex32 head "kt-known-head head"
  return { seq := seq, head := String.ofList (trim head), sig := "" }

variable (C : Crypto)

/--
The transparency block of `client::run`: the log key is the pinned one, the log verifies, it
includes the served key, and it extends the head of an earlier run. Returns the `seq` of the key
and the printed head line.
-/
def ktChecks (p : Profile) (logPub : Bytes 32) (ktKnownHead : Option SignedHead)
    (pk : IssuerPublicKey) (kt : KtResponse) : Outcome String (UInt64 × String) := do
  Outcome.require (kt.servedPub = logPub.val)
    ("kt: issuer serves log pubkey " ++ kt.logPub ++ " but client pinned "
      ++ String.ofList (Hex.encode logPub.val))
  (verifyLog C p logPub kt.records kt.signedHead).mapErr fun e =>
    "kt: log does not verify against pinned key: " ++ e.message
  let seq ← (verifyInclusion kt.records (pk.tokenKeyId C)).mapErr fun e =>
    "kt: issuer key not in transparency log: " ++ e.message
  match ktKnownHead with
  | none => return (seq, ktHeadLine kt.signedHead)
  | some old =>
    (verifyConsistency C old kt.records).mapErr fun e =>
      "kt: new log is not consistent with the head you pinned: " ++ e.message
    return (seq, ktHeadLine kt.signedHead)

/--
`client::run` up to `begin`, with the pin as it is given in `--kt-log-pub`. An answer is the error
of the request or what its body is read as.
-/
def runChecks (p : Profile) (ktLogPub : String) (ktKnownHead : Option SignedHead)
    (keys : Except String (Except String IssuerPublicKey))
    (kt : Except String (Except String KtResponse)) : Outcome String (UInt64 × String) := do
  let logPub ← parseHex32 ktLogPub.toList "kt-log-pub"
  let pk ← Outcome.ofExcept id keys
  let pk ← Outcome.ofExcept id pk
  let kt ← Outcome.ofExcept id kt
  let kt ← Outcome.ofExcept id kt
  ktChecks C p logPub ktKnownHead pk kt

/-- `kt_known_head.map(parse_known_head).transpose()`. -/
def knownHeadArg : Option String → Outcome String (Option SignedHead)
  | none => .ok none
  | some s => do
    let sth ← parseKnownHead s
    return some sth

/-- The body `run` posts to `/authorize`; the count is cast to `u32`. -/
def authorizeBody (eat : List UInt8) (req : SignRequest) (count : Nat) : AuthorizeBody where
  eatB64 := String.ofList (Base64.encode .standard eat)
  binding := String.ofList (Hex.encode req.body.binding.val)
  maxBatch := UInt32.ofNat count

/-! ## The printed line -/

theorem decodeHex32_trim (field text : String) :
    decodeHex32 field (String.ofList (trim text.toList)) = decodeHex32 field text := by
  simp [decodeHex32]

/-- The head kept from a printed line is checked like the head it was printed for. -/
theorem verifyConsistency_trim (sth : SignedHead) (sig : String) (records : List KeyRecord) :
    verifyConsistency C ⟨sth.seq, String.ofList (trim sth.head.toList), sig⟩ records
      = verifyConsistency C sth records := by
  have hhead : parseHead ⟨sth.seq, String.ofList (trim sth.head.toList), sig⟩ = parseHead sth :=
    decodeHex32_trim "head" sth.head
  unfold verifyConsistency
  rw [hhead]

/--
**The line a run prints is read back as the head it was printed for**, up to whitespace around
the head, which no check looks at. The head was parsed before it was printed, so there is no
second `:` in the way and it is not blank.
-/
theorem parseKnownHead_ktHeadLine {sth : SignedHead} {head : Bytes 32}
    (h : parseHead sth = .ok head) :
    parseKnownHead (ktHeadLine sth)
      = .ok { seq := sth.seq, head := String.ofList (trim sth.head.toList), sig := "" } := by
  have hdec : Hex.decodeArray 32 (trim sth.head.toList) = some head := decodeHex32_eq_ok.mp h
  obtain ⟨bytes, hbytes, harr⟩ := Option.bind_eq_some_iff.mp hdec
  have hcolon : ∀ c ∈ showU64 sth.seq, c ≠ ':' := by
    rintro c hc rfl
    exact absurd (isDigit_of_mem_showU64 hc) (by decide)
  have hdigits : (showU64 sth.seq ++ ':' :: sth.head.toList.rdropWhile isWhitespace).dropWhile
      isWhitespace = showU64 sth.seq ++ ':' :: sth.head.toList.rdropWhile isWhitespace := by
    cases hs : showU64 sth.seq with
    | nil => rfl
    | cons c rest =>
      have hc : isWhitespace c = false :=
        isWhitespace_of_isDigit (isDigit_of_mem_showU64 (n := sth.seq) (by simp [hs]))
      rw [List.cons_append, List.dropWhile_cons_of_neg (by simp [hc])]
  have htrim : trim (ktHeadLine sth).toList
      = showU64 sth.seq ++ ':' :: sth.head.toList.rdropWhile isWhitespace := by
    rw [trim, ktHeadLine, String.toList_ofList, rdropWhile_append_cons (by decide), hdigits]
  simp only [parseKnownHead, htrim, splitOnce_append hcolon, Outcome.ofOption_some,
    Outcome.ok_bind, parseU64_showU64, parseHex32, trim_rdropWhile, hbytes, harr,
    Outcome.pure_eq_ok]

end EatPass
