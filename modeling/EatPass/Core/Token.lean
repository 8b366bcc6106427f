import EatPass.Infra.Outcome
import EatPass.Infra.Text
import EatPass.Core.Key

/-!
# Challenges and tokens

`TokenChallenge` of `core/src/lib.rs` and `SpendToken` of `pomfrit/src/lib.rs` with their byte
layouts, and the three messages of the blind signature: `client_begin`, `issuer_sign` and
`client_finalize`, then `verify`.

* `TokenChallenge.fromBytes_toBytes`, `SpendToken.fromBytes_toBytes` — the layouts are read back
* `finalize_blindSign`, `verify_mintedToken` — the tokens that are minted verify under their key
-/

namespace EatPass

open Infra

/-- `PomfritError`. -/
inductive PomfritError where
  | countMismatch (want got : Nat)
  | malformed (what : String)
  | verifyFailed
deriving DecidableEq

def PomfritError.message : PomfritError → String
  | .countMismatch want got =>
    "count mismatch: want " ++ toString want ++ ", got " ++ toString got
  | .malformed what => "malformed token: " ++ what
  | .verifyFailed => "verification failed"

/-- The variants of `core::Error` that the functions below return. -/
inductive Error where
  | pomfrit (e : PomfritError)
  | keyVersion (want have_ : UInt32)
  | keyIdMismatch
  | challengeMismatch
  | tokenType (want got : UInt16)
  | malformed (what : String)
deriving DecidableEq

def Error.message : Error → String
  | .pomfrit e => "pomfrit: " ++ e.message
  | .keyVersion want have_ =>
    "key version mismatch: token wants v" ++ toString want ++ ", have v" ++ toString have_
  | .keyIdMismatch => "token_key_id mismatch: token bound to a different issuer key"
  | .challengeMismatch => "challenge mismatch: token was issued for a different challenge"
  | .tokenType want got =>
    "token type " ++ toString got ++ " unsupported (want " ++ toString want ++ ")"
  | .malformed what => "malformed token: " ++ what

/-! ## Challenges -/

structure TokenChallenge where
  tokenType : UInt16
  issuerName : String
  redemptionContext : List UInt8
  originInfo : String
deriving DecidableEq

namespace TokenChallenge

/-- `TokenChallenge::new`. -/
def new (issuerName originInfo : String) : TokenChallenge where
  tokenType := EatPass.tokenType
  issuerName := issuerName
  redemptionContext := []
  originInfo := originInfo

/-- `to_bytes`. A length that does not fit its field is cut off by the cast. -/
def toBytes (ch : TokenChallenge) : List UInt8 :=
  beBytes 2 ch.tokenType.toNat
    ++ (beBytes 2 (UInt16.ofNat (utf8 ch.issuerName).length).toNat
    ++ (utf8 ch.issuerName
    ++ (UInt8.ofNat ch.redemptionContext.length :: (ch.redemptionContext
    ++ (beBytes 2 (UInt16.ofNat (utf8 ch.originInfo).length).toNat
    ++ utf8 ch.originInfo)))))

def digest (C : Crypto) (ch : TokenChallenge) : Bytes 32 := C.sha256 ch.toBytes

/-- `from_bytes`. -/
def fromBytes (b : List UInt8) : Outcome Error TokenChallenge := do
  Outcome.require (2 + 2 + 1 + 2 ≤ b.length) (.malformed "challenge too short")
  let tokenType ← readU16 b 0
  let issLen ← readU16 b 2
  let off := 4
  Outcome.require (off + issLen.toNat + 1 + 2 ≤ b.length)
    (.malformed "challenge issuer truncated")
  let iss ← slice b off (off + issLen.toNat)
  let issuerName ← Outcome.ofOption (.malformed "challenge issuer utf8") (fromUtf8 iss)
  let off := off + issLen.toNat
  let ctxLen ← index b off
  let off := off + 1
  Outcome.require (off + ctxLen.toNat + 2 ≤ b.length) (.malformed "challenge context truncated")
  let redemptionContext ← slice b off (off + ctxLen.toNat)
  let off := off + ctxLen.toNat
  let orgLen ← readU16 b off
  let off := off + 2
  Outcome.require (off + orgLen.toNat = b.length) (.malformed "challenge origin truncated")
  let org ← slice b off (off + orgLen.toNat)
  let originInfo ← Outcome.ofOption (.malformed "challenge origin utf8") (fromUtf8 org)
  return { tokenType, issuerName, redemptionContext, originInfo }

def withRedemptionContext (ch : TokenChallenge) (ctx : Bytes 32) : TokenChallenge :=
  { ch with redemptionContext := ctx.val }

def hasRedemptionContext (ch : TokenChallenge) : Bool := ch.redemptionContext.length == 32

/-- The lengths of the three fields fit the integers they are written as. -/
structure Fits (ch : TokenChallenge) : Prop where
  issuerName : (utf8 ch.issuerName).length ≤ 65535
  redemptionContext : ch.redemptionContext.length ≤ 255
  originInfo : (utf8 ch.originInfo).length ≤ 65535

/-- **A challenge whose fields fit is read back from its bytes.** -/
theorem fromBytes_toBytes {ch : TokenChallenge} (h : ch.Fits) : fromBytes ch.toBytes = .ok ch := by
  have hiss : (UInt16.ofNat (utf8 ch.issuerName).length).toNat = (utf8 ch.issuerName).length :=
    Nat.mod_eq_of_lt (Nat.lt_succ_of_le h.issuerName)
  have horg : (UInt16.ofNat (utf8 ch.originInfo).length).toNat = (utf8 ch.originInfo).length :=
    Nat.mod_eq_of_lt (Nat.lt_succ_of_le h.originInfo)
  have hctx : (UInt8.ofNat ch.redemptionContext.length).toNat = ch.redemptionContext.length :=
    Nat.mod_eq_of_lt (Nat.lt_succ_of_le h.redemptionContext)
  -- what stands before each field, so that its length is the offset the field is read at, and
  -- what stands after it
  let p₁ := beBytes 2 ch.tokenType.toNat
  let p₂ := p₁ ++ beBytes 2 (UInt16.ofNat (utf8 ch.issuerName).length).toNat
  let p₃ := p₂ ++ utf8 ch.issuerName
  let p₄ := p₃ ++ [UInt8.ofNat ch.redemptionContext.length]
  let p₅ := p₄ ++ ch.redemptionContext
  let p₆ := p₅ ++ beBytes 2 (UInt16.ofNat (utf8 ch.originInfo).length).toNat
  let q₆ := beBytes 2 (UInt16.ofNat (utf8 ch.originInfo).length).toNat ++ utf8 ch.originInfo
  let q₅ := ch.redemptionContext ++ q₆
  let q₄ := UInt8.ofNat ch.redemptionContext.length :: q₅
  have hlen : ch.toBytes.length = 4 + (utf8 ch.issuerName).length + 1
      + ch.redemptionContext.length + 2 + (utf8 ch.originInfo).length := by
    simp only [toBytes, List.length_append, List.length_cons, beBytes_length]
    omega
  have htype : (readU16 ch.toBytes 0 : Outcome Error UInt16) = .ok ch.tokenType :=
    readU16_eq_ok (a := []) rfl rfl
  have hissLen : (readU16 ch.toBytes 2 : Outcome Error UInt16)
      = .ok (UInt16.ofNat (utf8 ch.issuerName).length) :=
    readU16_eq_ok (a := p₁) rfl rfl
  have hissuer : (slice ch.toBytes 4 (4 + (utf8 ch.issuerName).length) : Outcome Error _)
      = .ok (utf8 ch.issuerName) :=
    slice_eq_ok (a := p₂) (c := q₄) (by simp [p₁, p₂, q₄, q₅, q₆, toBytes]) (by simp [p₁, p₂]) rfl
  have hctxLen : (index ch.toBytes (4 + (utf8 ch.issuerName).length) : Outcome Error UInt8)
      = .ok (UInt8.ofNat ch.redemptionContext.length) :=
    index_eq_ok (a := p₃) (c := q₅) (by simp [p₁, p₂, p₃, q₅, q₆, toBytes])
      (by simp [p₁, p₂, p₃]; omega)
  have hcontext : (slice ch.toBytes (4 + (utf8 ch.issuerName).length + 1)
      (4 + (utf8 ch.issuerName).length + 1 + ch.redemptionContext.length) : Outcome Error _)
      = .ok ch.redemptionContext :=
    slice_eq_ok (a := p₄) (c := q₆) (by simp [p₁, p₂, p₃, p₄, q₆, toBytes])
      (by simp [p₁, p₂, p₃, p₄]; omega) rfl
  have horgLen : (readU16 ch.toBytes
      (4 + (utf8 ch.issuerName).length + 1 + ch.redemptionContext.length) : Outcome Error UInt16)
      = .ok (UInt16.ofNat (utf8 ch.originInfo).length) :=
    readU16_eq_ok (a := p₅) (c := utf8 ch.originInfo)
      (by simp [p₁, p₂, p₃, p₄, p₅, toBytes])
      (by simp [p₁, p₂, p₃, p₄, p₅]; omega)
  have horigin : (slice ch.toBytes
      (4 + (utf8 ch.issuerName).length + 1 + ch.redemptionContext.length + 2)
      (4 + (utf8 ch.issuerName).length + 1 + ch.redemptionContext.length + 2
        + (utf8 ch.originInfo).length) : Outcome Error _) = .ok (utf8 ch.originInfo) :=
    slice_eq_ok (a := p₆) (c := []) (by simp [p₁, p₂, p₃, p₄, p₅, p₆, toBytes])
      (by simp [p₁, p₂, p₃, p₄, p₅, p₆]; omega) rfl
  unfold fromBytes
  rw [Outcome.require_pos (by omega), Outcome.ok_bind, htype, Outcome.ok_bind, hissLen,
    Outcome.ok_bind]
  simp only [hiss]
  rw [Outcome.require_pos (by omega), Outcome.ok_bind, hissuer, Outcome.ok_bind, fromUtf8_utf8,
    Outcome.ofOption_some, Outcome.ok_bind, hctxLen, Outcome.ok_bind]
  simp only [hctx]
  rw [Outcome.require_pos (by omega), Outcome.ok_bind, hcontext, Outcome.ok_bind, horgLen,
    Outcome.ok_bind]
  simp only [horg]
  rw [Outcome.require_pos (by omega), Outcome.ok_bind, horigin, Outcome.ok_bind, fromUtf8_utf8,
    Outcome.ofOption_some, Outcome.ok_bind]
  rfl

end TokenChallenge

/-! ## Tokens -/

/-- `SpendToken`, the `Token` of `core`. -/
structure SpendToken where
  tokenType : UInt16
  nonce : Bytes 32
  challengeDigest : Bytes 32
  tokenKeyId : Bytes 32
  authenticator : List UInt8
deriving DecidableEq

namespace SpendToken

def toBytes (t : SpendToken) : List UInt8 :=
  beBytes 2 t.tokenType.toNat
    ++ (t.nonce.val ++ (t.challengeDigest.val ++ (t.tokenKeyId.val ++ t.authenticator)))

/-- `from_bytes`. The authenticator is longer than the `additional_r` it starts with. -/
def fromBytes (b : List UInt8) : Outcome PomfritError SpendToken := do
  Outcome.require (98 + 32 + 1 ≤ b.length)
    (.malformed ("token too short: " ++ toString b.length ++ " bytes"))
  let tokenType ← readU16 b 0
  let nonce ← readBytes 32 b 2
  let challengeDigest ← readBytes 32 b 34
  let tokenKeyId ← readBytes 32 b 66
  let authenticator ← slice b 98 b.length
  return { tokenType, nonce, challengeDigest, tokenKeyId, authenticator }

/-- **Every byte string with room for a proof is read as a token.** -/
theorem exists_fromBytes_eq_ok {b : List UInt8} (h : 131 ≤ b.length) :
    ∃ t, fromBytes b = .ok t := by
  obtain ⟨tokenType, htype⟩ : ∃ v, (readU16 b 0 : Outcome PomfritError _) = .ok v :=
    exists_readU16_eq_ok (by omega)
  obtain ⟨nonce, hnonce⟩ : ∃ x, (readBytes 32 b 2 : Outcome PomfritError _) = .ok x :=
    exists_readBytes_eq_ok (by omega)
  obtain ⟨digest, hdigest⟩ : ∃ x, (readBytes 32 b 34 : Outcome PomfritError _) = .ok x :=
    exists_readBytes_eq_ok (by omega)
  obtain ⟨key, hkey⟩ : ∃ x, (readBytes 32 b 66 : Outcome PomfritError _) = .ok x :=
    exists_readBytes_eq_ok (by omega)
  obtain ⟨auth, hauth⟩ : ∃ x, (slice b 98 b.length : Outcome PomfritError _) = .ok x :=
    exists_slice_eq_ok (by omega) (Nat.le_refl _)
  refine ⟨⟨tokenType, nonce, digest, key, auth⟩, ?_⟩
  unfold fromBytes
  rw [Outcome.require_pos h, Outcome.ok_bind, htype, Outcome.ok_bind, hnonce, Outcome.ok_bind,
    hdigest, Outcome.ok_bind, hkey, Outcome.ok_bind, hauth, Outcome.ok_bind]
  rfl

/-- What is read as a token is its encoding, and its authenticator has a proof in it. -/
theorem toBytes_of_fromBytes {b : List UInt8} {t : SpendToken} (h : fromBytes b = .ok t) :
    t.toBytes = b ∧ 131 ≤ b.length ∧ 32 < t.authenticator.length := by
  simp only [fromBytes, Outcome.bind_eq_ok, Outcome.require_eq_ok, Outcome.pure_eq_ok,
    Outcome.ok.injEq] at h
  obtain ⟨_, hlen, tokenType, htype, nonce, hnonce, digest, hdigest, key, hkey, auth, hauth, rfl⟩
    := h
  obtain ⟨hauth, hauthLength⟩ := drop_of_slice hauth
  refine ⟨?_, hlen, by rw [hauthLength]; omega⟩
  rw [List.drop_length, List.append_nil] at hauth
  calc _ = b.drop 0 := by
        rw [drop_of_readU16 htype, drop_of_readBytes hnonce, drop_of_readBytes hdigest,
          drop_of_readBytes hkey, hauth]
        rfl
    _ = b := rfl

/-- A byte string that is too short is refused before it is read. -/
theorem fromBytes_of_short {b : List UInt8} (h : b.length < 131) :
    fromBytes b = .err (.malformed ("token too short: " ++ toString b.length ++ " bytes")) := by
  unfold fromBytes
  rw [Outcome.require_neg (by omega), Outcome.err_bind]

/-- **A token with a proof in its authenticator is read back from its bytes.** -/
theorem fromBytes_toBytes {t : SpendToken} (h : 32 < t.authenticator.length) :
    fromBytes t.toBytes = .ok t := by
  let p₁ := beBytes 2 t.tokenType.toNat
  let p₂ := p₁ ++ t.nonce.val
  let p₃ := p₂ ++ t.challengeDigest.val
  let p₄ := p₃ ++ t.tokenKeyId.val
  have hlen : t.toBytes.length = 98 + t.authenticator.length := by
    simp only [toBytes, List.length_append, beBytes_length, t.nonce.property,
      t.challengeDigest.property, t.tokenKeyId.property]
    omega
  have htype : (readU16 t.toBytes 0 : Outcome PomfritError UInt16) = .ok t.tokenType :=
    readU16_eq_ok (a := []) rfl rfl
  have hnonce : (readBytes 32 t.toBytes 2 : Outcome PomfritError _) = .ok t.nonce :=
    readBytes_eq_ok (a := p₁) rfl rfl
  have hdigest : (readBytes 32 t.toBytes 34 : Outcome PomfritError _) = .ok t.challengeDigest :=
    readBytes_eq_ok (a := p₂) (c := t.tokenKeyId.val ++ t.authenticator)
      (by simp [p₁, p₂, toBytes]) (by simp [p₁, p₂, t.nonce.property])
  have hkey : (readBytes 32 t.toBytes 66 : Outcome PomfritError _) = .ok t.tokenKeyId :=
    readBytes_eq_ok (a := p₃) (c := t.authenticator) (by simp [p₁, p₂, p₃, toBytes])
      (by simp [p₁, p₂, p₃, t.nonce.property, t.challengeDigest.property])
  have hauth : (slice t.toBytes 98 t.toBytes.length : Outcome PomfritError _)
      = .ok t.authenticator :=
    slice_eq_ok (a := p₄) (c := []) (by simp [p₁, p₂, p₃, p₄, toBytes])
      (by simp [p₁, p₂, p₃, p₄, t.nonce.property, t.challengeDigest.property,
        t.tokenKeyId.property]) hlen
  unfold fromBytes
  rw [Outcome.require_pos (by omega), Outcome.ok_bind, htype, Outcome.ok_bind, hnonce,
    Outcome.ok_bind, hdigest, Outcome.ok_bind, hkey, Outcome.ok_bind, hauth, Outcome.ok_bind]
  rfl

end SpendToken

/-- `token_input`: the message a token signs. -/
def tokenInput (nonce challengeDigest tokenKeyId : Bytes 32) : List UInt8 :=
  beBytes 2 tokenType.toNat ++ (nonce.val ++ (challengeDigest.val ++ tokenKeyId.val))

/-- `encode_authenticator`. -/
def encodeAuthenticator (additionalR : Bytes 32) (proof : List UInt8) : List UInt8 :=
  additionalR.val ++ proof

/-- `decode_authenticator`. -/
def decodeAuthenticator (bytes : List UInt8) : Outcome PomfritError (Bytes 32 × List UInt8) := do
  Outcome.require (32 < bytes.length) (.malformed "authenticator too short")
  let additionalR ← readBytes 32 bytes 0
  let proof ← slice bytes 32 bytes.length
  return (additionalR, proof)

/-- What the layout of a token leaves for the authenticator is enough to split it. -/
theorem exists_decodeAuthenticator_eq_ok {bytes : List UInt8} (h : 32 < bytes.length) :
    ∃ parts, decodeAuthenticator bytes = .ok parts := by
  obtain ⟨additionalR, hr⟩ : ∃ x, (readBytes 32 bytes 0 : Outcome PomfritError _) = .ok x :=
    exists_readBytes_eq_ok (by omega)
  obtain ⟨proof, hproof⟩ : ∃ x, (slice bytes 32 bytes.length : Outcome PomfritError _) = .ok x :=
    exists_slice_eq_ok (by omega) (Nat.le_refl _)
  refine ⟨(additionalR, proof), ?_⟩
  unfold decodeAuthenticator
  rw [Outcome.require_pos h, Outcome.ok_bind, hr, Outcome.ok_bind, hproof, Outcome.ok_bind]
  rfl

theorem encodeAuthenticator_length (additionalR : Bytes 32) {proof : List UInt8}
    (h : proof ≠ []) : 32 < (encodeAuthenticator additionalR proof).length := by
  have hpos : 0 < proof.length := List.length_pos_iff.mpr h
  rw [encodeAuthenticator, List.length_append, additionalR.property]
  omega

theorem decodeAuthenticator_encode (additionalR : Bytes 32) {proof : List UInt8}
    (h : proof ≠ []) :
    decodeAuthenticator (encodeAuthenticator additionalR proof) = .ok (additionalR, proof) := by
  have hlen : (encodeAuthenticator additionalR proof).length = 32 + proof.length := by
    rw [encodeAuthenticator, List.length_append, additionalR.property]
  have hr : (readBytes 32 (encodeAuthenticator additionalR proof) 0 : Outcome PomfritError _)
      = .ok additionalR :=
    readBytes_eq_ok (a := []) rfl rfl
  have hproof : (slice (encodeAuthenticator additionalR proof) 32
      (encodeAuthenticator additionalR proof).length : Outcome PomfritError _) = .ok proof :=
    slice_eq_ok (a := additionalR.val) (c := []) (by simp [encodeAuthenticator])
      additionalR.property.symm hlen
  unfold decodeAuthenticator
  rw [Outcome.require_pos (encodeAuthenticator_length _ h), Outcome.ok_bind, hr, Outcome.ok_bind,
    hproof, Outcome.ok_bind]
  rfl

/-! ## The channel binding -/

def bindingDomain : List UInt8 := utf8 "eat-pass/binding" ++ [0]

/-- `(b.len() as u32).to_be_bytes()` followed by `b`. -/
def lengthPrefixed (b : List UInt8) : List UInt8 :=
  beBytes 4 (UInt32.ofNat b.length).toNat ++ b

/-- What `binding_of` hashes. -/
def bindingMessage (blinded : List (List UInt8)) : List UInt8 :=
  bindingDomain ++ (beBytes 4 (UInt32.ofNat blinded.length).toNat
    ++ blinded.flatMap lengthPrefixed)

/-- `binding_of`. -/
def bindingOf (C : Crypto) (blinded : List (List UInt8)) : Bytes 32 :=
  C.sha256 (bindingMessage blinded)

/-! ## The blind signature -/

/-- The `SignRequest` of `pomfrit`, which `core` flattens into its own. -/
structure PomfritSignBody where
  blinded : List (List UInt8)
  binding : Bytes 32
deriving DecidableEq

/-- The `SignRequest` of `core`. -/
structure SignRequest where
  tokenChallenge : TokenChallenge
  keyVersion : UInt32
  body : PomfritSignBody
deriving DecidableEq

structure SignResponse where
  blindSigs : List (List UInt8)
deriving DecidableEq

structure PendingItem (P : Pomfrit) where
  state : P.ProofState
  nonce : Bytes 32
  additionalR : Bytes 32

structure PendingMint (P : Pomfrit) where
  pk : List UInt8
  challengeDigest : Bytes 32
  tokenKeyId : Bytes 32
  items : List (PendingItem P)

variable (C : Crypto)

/-- One turn of the loop of `client_begin`, with the two values `random32` draws in it. -/
def beginItem (challengeDigest tokenKeyId : Bytes 32) (coins : Bytes 32 × Bytes 32) :
    List UInt8 × PendingItem C.pomfrit :=
  let (bm, state, additionalR) :=
    C.pomfrit.sign1 (tokenInput coins.1 challengeDigest tokenKeyId) coins.2
  (bm, { state, nonce := coins.1, additionalR })

/-- `client_begin`; `count` is the length of the list of random values. -/
def clientBegin (pk : List UInt8) (tokenKeyId challengeDigest : Bytes 32)
    (coins : List (Bytes 32 × Bytes 32)) : PomfritSignBody × PendingMint C.pomfrit :=
  let turns := coins.map (beginItem C challengeDigest tokenKeyId)
  let blinded := turns.map Prod.fst
  ({ blinded, binding := bindingOf C blinded },
    { pk, challengeDigest, tokenKeyId, items := turns.map Prod.snd })

/-- `issuer_sign`. -/
def issuerSign (sk : List UInt8) (req : PomfritSignBody) : SignResponse where
  blindSigs := req.blinded.map (C.pomfrit.sign2 sk)

/-- One turn of the loop of `client_finalize`. -/
def finalizeItem (pending : PendingMint C.pomfrit) (epk : List UInt8)
    (item : PendingItem C.pomfrit) (bsig : List UInt8) : SpendToken :=
  let (proof, additionalR) := C.pomfrit.sign3 pending.pk epk bsig item.state item.additionalR
  { tokenType := tokenType
    nonce := item.nonce
    challengeDigest := pending.challengeDigest
    tokenKeyId := pending.tokenKeyId
    authenticator := encodeAuthenticator additionalR proof }

/-- `client_finalize`. -/
def clientFinalize (pending : PendingMint C.pomfrit) (resp : SignResponse) (pk : List UInt8) :
    Outcome PomfritError (List SpendToken) := do
  Outcome.require (pk = pending.pk) (.malformed "issuer pubkey mismatch")
  Outcome.require (resp.blindSigs.length = pending.items.length)
    (.countMismatch pending.items.length resp.blindSigs.length)
  let epk := C.pomfrit.expandPk pending.pk
  return List.zipWith (finalizeItem C pending epk) pending.items resp.blindSigs

/-- `Scheme::verify`. -/
def schemeVerify (epk : List UInt8) (token : SpendToken) :
    Outcome PomfritError (Bytes 32) := do
  Outcome.require (token.tokenType = tokenType)
    (.malformed ("token type " ++ toString token.tokenType ++ " unsupported (want "
      ++ toString tokenType ++ ")"))
  let (additionalR, proof) ← decodeAuthenticator token.authenticator
  let msg := tokenInput token.nonce token.challengeDigest token.tokenKeyId
  Outcome.require (C.pomfrit.verify epk msg proof additionalR = true) .verifyFailed
  return token.nonce

theorem schemeVerify_eq_ok {C : Crypto} {epk : List UInt8} {token : SpendToken}
    {additionalR : Bytes 32} {proof : List UInt8} (htype : token.tokenType = tokenType)
    (hauth : decodeAuthenticator token.authenticator = .ok (additionalR, proof))
    (hproof : C.pomfrit.verify epk
      (tokenInput token.nonce token.challengeDigest token.tokenKeyId) proof additionalR = true) :
    schemeVerify C epk token = .ok token.nonce := by
  unfold schemeVerify
  rw [Outcome.require_pos htype, Outcome.ok_bind, hauth, Outcome.ok_bind]
  simp only
  rw [Outcome.require_pos hproof]
  rfl

/-! ## The issuer, the client and the verifier of `core` -/

/-- `Issuer::blind_sign`. -/
def Issuer.blindSign (issuer : Issuer) (req : SignRequest) : Outcome Error SignResponse := do
  Outcome.require (req.keyVersion = issuer.keyVersion)
    (.keyVersion req.keyVersion issuer.keyVersion)
  return issuerSign C issuer.sk req.body

/-- `PendingTokens`. -/
structure PendingTokens where
  inner : PendingMint C.pomfrit
  pk : IssuerPublicKey

/-- `Client::begin`. -/
def clientBeginRequest (pk : IssuerPublicKey) (challenge : TokenChallenge)
    (coins : List (Bytes 32 × Bytes 32)) : SignRequest × PendingTokens C :=
  let (body, inner) := clientBegin C pk.key (pk.tokenKeyId C) (challenge.digest C) coins
  ({ tokenChallenge := challenge, keyVersion := pk.keyVersion, body }, { inner, pk })

/-- `PendingTokens::finalize`. -/
def PendingTokens.finalize (pending : PendingTokens C) (pk : IssuerPublicKey)
    (resp : SignResponse) : Outcome Error (List SpendToken) :=
  (clientFinalize C pending.inner resp pk.key).mapErr .pomfrit

/-- `Verifier`. Its expanded key was computed from `pk` in `Verifier::new`. -/
structure Verifier where
  pk : IssuerPublicKey
deriving DecidableEq

/-- `Verifier::verify`. -/
def Verifier.verify (v : Verifier) (token : SpendToken) (challenge : TokenChallenge) :
    Outcome Error (Bytes 32) := do
  Outcome.require (token.tokenType = tokenType) (.tokenType tokenType token.tokenType)
  Outcome.require (token.challengeDigest = challenge.digest C) .challengeMismatch
  Outcome.require (token.tokenKeyId = v.pk.tokenKeyId C) .keyIdMismatch
  (schemeVerify C (C.pomfrit.expandPk v.pk.key) token).mapErr .pomfrit

/-- A token that verifies names the key and the challenge, and its nonce is returned. -/
theorem Verifier.verify_ok {C : Crypto} {v : Verifier} {token : SpendToken}
    {challenge : TokenChallenge} {nonce : Bytes 32}
    (h : v.verify C token challenge = .ok nonce) :
    token.tokenKeyId = v.pk.tokenKeyId C ∧ token.nonce = nonce := by
  simp only [Verifier.verify, schemeVerify, Outcome.bind_eq_ok, Outcome.require_eq_ok,
    Outcome.mapErr_eq_ok, Outcome.pure_eq_ok, Outcome.ok.injEq] at h
  obtain ⟨_, _, _, _, _, hkey, _, _, _, _, _, _, hnonce⟩ := h
  exact ⟨hkey, hnonce⟩

/-- Verification reads nothing of a challenge but its digest. -/
theorem Verifier.verify_congr {C : Crypto} {a b : TokenChallenge} (h : a.digest C = b.digest C)
    (v : Verifier) (token : SpendToken) : v.verify C token a = v.verify C token b := by
  unfold Verifier.verify
  rw [h]

/-! ## Minted tokens verify -/

/-- The token that `begin`, `blind_sign` and `finalize` make from one pair of random values. -/
def mintedToken (issuer : Issuer) (challenge : TokenChallenge) (coins : Bytes 32 × Bytes 32) :
    SpendToken :=
  let pk := issuer.public
  let turn := beginItem C (challenge.digest C) (pk.tokenKeyId C) coins
  finalizeItem C ⟨pk.key, challenge.digest C, pk.tokenKeyId C, []⟩ (C.pomfrit.expandPk pk.key)
    turn.2 (C.pomfrit.sign2 issuer.sk turn.1)

section Minted

variable (issuer : Issuer) (challenge : TokenChallenge) (coins : Bytes 32 × Bytes 32)

@[simp] theorem mintedToken_tokenType :
    (mintedToken C issuer challenge coins).tokenType = tokenType := rfl

@[simp] theorem mintedToken_challengeDigest :
    (mintedToken C issuer challenge coins).challengeDigest = challenge.digest C := rfl

@[simp] theorem mintedToken_tokenKeyId :
    (mintedToken C issuer challenge coins).tokenKeyId = issuer.public.tokenKeyId C := rfl

end Minted

/-- **The three messages of the blind signature fit together**: one token for each pair. -/
theorem finalize_blindSign (issuer : Issuer) (challenge : TokenChallenge)
    (coins : List (Bytes 32 × Bytes 32)) :
    (issuer.blindSign C (clientBeginRequest C issuer.public challenge coins).1
      >>= fun resp => (clientBeginRequest C issuer.public challenge coins).2.finalize C
        issuer.public resp)
      = .ok (coins.map (mintedToken C issuer challenge)) := by
  have hzip : ∀ (pending : PendingMint C.pomfrit) (epk : List UInt8)
      (turns : List (List UInt8 × PendingItem C.pomfrit)),
      List.zipWith (finalizeItem C pending epk) (turns.map Prod.snd)
        ((turns.map Prod.fst).map (C.pomfrit.sign2 issuer.sk))
      = turns.map fun turn => finalizeItem C pending epk turn.2
          (C.pomfrit.sign2 issuer.sk turn.1) := by
    intro pending epk turns
    induction turns with
    | nil => rfl
    | cons turn rest ih => simp only [List.map_cons, List.zipWith_cons_cons, ih]
  simp only [Issuer.blindSign, clientBeginRequest, clientBegin, Issuer.public_keyVersion,
    Outcome.require_pos, Outcome.ok_bind, Outcome.pure_eq_ok, PendingTokens.finalize,
    clientFinalize, issuerSign, List.length_map, hzip, Outcome.mapErr_ok]
  rw [List.map_map]
  rfl

/-- **A minted token verifies**, and it is long enough to be read back. -/
theorem verify_mintedToken (hp : C.pomfrit.Complete) (seed : List UInt8) (version : UInt32)
    (challenge : TokenChallenge) (coins : Bytes 32 × Bytes 32) :
    let issuer := Issuer.generate C seed version
    let token := mintedToken C issuer challenge coins
    Verifier.verify C ⟨issuer.public⟩ token challenge = .ok coins.1
      ∧ 32 < token.authenticator.length := by
  have hcomplete := hp seed
    (tokenInput coins.1 (challenge.digest C) ((Issuer.generate C seed version).public.tokenKeyId C))
    coins.2
  obtain ⟨hverify, hne⟩ := hcomplete
  refine ⟨?_, ?_⟩
  · unfold Verifier.verify
    rw [Outcome.require_pos (mintedToken_tokenType ..), Outcome.ok_bind,
      Outcome.require_pos (mintedToken_challengeDigest ..), Outcome.ok_bind,
      Outcome.require_pos (mintedToken_tokenKeyId ..), Outcome.ok_bind]
    refine Outcome.mapErr_eq_ok.mpr ?_
    exact schemeVerify_eq_ok (mintedToken_tokenType ..) (decodeAuthenticator_encode _ hne) hverify
  · exact encodeAuthenticator_length _ hne

end EatPass
