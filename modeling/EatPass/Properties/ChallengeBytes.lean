import EatPass.Core.Sample
import EatPass.Cli.Origin

/-!
# The bytes of a challenge

`TokenChallenge::from_bytes` reads untrusted headers, `to_bytes` is what a token commits to. The
reader accepts what the writer makes of a challenge whose fields fit their lengths, and nothing
else. The writer cuts longer lengths off, so challenges whose fields do not fit can share their
bytes.

* `fromBytes_eq_ok_iff` — the reader, in both directions
* `toBytes_eq_iff` — which challenges share their bytes
-/

namespace EatPass

open Infra

variable {C : Crypto}

namespace TokenChallenge

/-! ## What the reader accepts -/

/-- **No access of the reader is out of range.** -/
theorem fromBytes_ne_panic (b : List UInt8) : fromBytes b ≠ .panic := by
  unfold fromBytes
  refine Outcome.require_bind_ne_panic fun hmin => ?_
  refine Outcome.bind_ne_panic (readU16_ne_panic (by omega)) fun _ _ => ?_
  refine Outcome.bind_ne_panic (readU16_ne_panic (by omega)) fun issLen _ => ?_
  -- each check leaves room for the fields that stand after the one it is about
  refine Outcome.require_bind_ne_panic fun hiss => ?_
  refine Outcome.bind_ne_panic (slice_ne_panic (by omega) (by omega)) fun _ _ => ?_
  refine Outcome.bind_ne_panic (Outcome.ofOption_ne_panic _ _) fun _ _ => ?_
  refine Outcome.bind_ne_panic (index_ne_panic (by omega)) fun ctxLen _ => ?_
  refine Outcome.require_bind_ne_panic fun hctx => ?_
  refine Outcome.bind_ne_panic (slice_ne_panic (by omega) (by omega)) fun _ _ => ?_
  refine Outcome.bind_ne_panic (readU16_ne_panic (by omega)) fun orgLen _ => ?_
  refine Outcome.require_bind_ne_panic fun horg => ?_
  refine Outcome.bind_ne_panic (slice_ne_panic (by omega) (by omega)) fun _ _ => ?_
  exact Outcome.bind_ne_panic (Outcome.ofOption_ne_panic _ _) fun _ _ => by simp

/-- What the reader accepts is the encoding of what it returns. -/
theorem fromBytes_ok {b : List UInt8} {ch : TokenChallenge} (h : fromBytes b = .ok ch) :
    b = ch.toBytes ∧ ch.Fits := by
  simp only [fromBytes, Outcome.bind_eq_ok, Outcome.require_eq_ok, Outcome.ofOption_eq_ok,
    Outcome.pure_eq_ok, Outcome.ok.injEq] at h
  obtain ⟨_, _, type, htype, issLen, hissLen, _, _, iss, hiss, name, hname, ctxLen, hctxLen, _, _,
    ctx, hctx, orgLen, horgLen, _, hend, org, horg, origin, horigin, rfl⟩ := h
  obtain rfl := fromUtf8_eq_some.mp hname
  obtain rfl := fromUtf8_eq_some.mp horigin
  obtain ⟨hiss, hissLength⟩ := drop_of_slice hiss
  obtain ⟨hctx, hctxLength⟩ := drop_of_slice hctx
  obtain ⟨horg, horgLength⟩ := drop_of_slice horg
  rw [Nat.add_sub_cancel_left] at hissLength hctxLength horgLength
  -- the lengths that were read are those of the fields
  have hissOf : UInt16.ofNat (utf8 name).length = issLen := by rw [hissLength, UInt16.ofNat_toNat]
  have hctxOf : UInt8.ofNat ctx.length = ctxLen := by rw [hctxLength, UInt8.ofNat_toNat]
  have horgOf : UInt16.ofNat (utf8 origin).length = orgLen := by
    rw [horgLength, UInt16.ofNat_toNat]
  have hfits : Fits ⟨type, name, ctx, origin⟩ :=
    ⟨hissLength ▸ Nat.le_of_lt_succ issLen.toNat_lt, hctxLength ▸ Nat.le_of_lt_succ ctxLen.toNat_lt,
      horgLength ▸ Nat.le_of_lt_succ orgLen.toNat_lt⟩
  refine ⟨?_, hfits⟩
  have hrest : b.drop (4 + issLen.toNat + 1 + ctxLen.toNat + 2 + orgLen.toNat) = [] :=
    List.drop_of_length_le (by omega)
  rw [hrest, List.append_nil] at horg
  calc b = b.drop 0 := rfl
    _ = _ := by
      rw [drop_of_readU16 htype, drop_of_readU16 hissLen, hiss, drop_of_index hctxLen, hctx,
        drop_of_readU16 horgLen, horg, ← hissOf, ← hctxOf, ← horgOf]
      rfl

/--
**The reader accepts exactly the encodings of challenges that fit.** For every byte string no access
is out of range, and the challenge that is returned is the one the bytes are the encoding of.
-/
theorem fromBytes_eq_ok_iff (b : List UInt8) :
    fromBytes b ≠ .panic ∧ ∀ ch, fromBytes b = .ok ch ↔ b = ch.toBytes ∧ ch.Fits := by
  refine ⟨fromBytes_ne_panic b, fun ch => ⟨fromBytes_ok, ?_⟩⟩
  rintro ⟨rfl, hfits⟩
  exact fromBytes_toBytes hfits

/-! ## Which challenges share their bytes -/

/-- The lengths of the first two fields exceed what is written of them equally often. -/
structure SameOverflow (a b : TokenChallenge) : Prop where
  issuerName : (utf8 a.issuerName).length / 65536 = (utf8 b.issuerName).length / 65536
  redemptionContext : a.redemptionContext.length / 256 = b.redemptionContext.length / 256

/-- Lengths that are cut off to the same integer and exceed it equally often are equal. -/
theorem length_eq_of_ofNat_u16 {m n : Nat} (hq : m / 65536 = n / 65536)
    (h : beBytes 2 (UInt16.ofNat m).toNat = beBytes 2 (UInt16.ofNat n).toNat) : m = n := by
  have hr := beBytes_inj (UInt16.ofNat m).toNat_lt (UInt16.ofNat n).toNat_lt h
  rw [UInt16.toNat_ofNat', UInt16.toNat_ofNat'] at hr
  omega

/-- **Challenges with the same bytes are equal exactly when their lengths exceed the fields equally
often.** The origin stands last, so its own length is no part of the condition. -/
theorem toBytes_eq_iff {a b : TokenChallenge} (h : a.toBytes = b.toBytes) :
    a = b ↔ SameOverflow a b := by
  constructor
  · rintro rfl
    exact ⟨rfl, rfl⟩
  · intro hsame
    obtain ⟨htype, h⟩ := List.append_inj h (by simp)
    obtain ⟨hissLen, h⟩ := List.append_inj h (by simp)
    obtain ⟨hiss, h⟩ := List.append_inj h (length_eq_of_ofNat_u16 hsame.issuerName hissLen)
    obtain ⟨hctxLen, h⟩ := List.cons.inj h
    have hctxEq : a.redemptionContext.length = b.redemptionContext.length := by
      have hr := congrArg UInt8.toNat hctxLen
      rw [UInt8.toNat_ofNat', UInt8.toNat_ofNat'] at hr
      have hq := hsame.redemptionContext
      omega
    obtain ⟨hctx, h⟩ := List.append_inj h hctxEq
    obtain ⟨_, horg⟩ := List.append_inj h (by simp)
    cases a
    cases b
    simp only [TokenChallenge.mk.injEq]
    exact ⟨UInt16.toNat_inj.mp (beBytes_inj (UInt16.toNat_lt _) (UInt16.toNat_lt _) htype),
      utf8_injective hiss, hctx, utf8_injective horg⟩

end TokenChallenge

/-! ## Whose tokens a challenge accepts -/

/--
The bytes of the first challenge do not stand for the second one, unless the two are equal: not as
an encoding, not for a verifier that is given a token minted for the first one, and not in the list
of an origin.
-/
structure Identified (C : Crypto) (a b : TokenChallenge) : Prop where
  bytes : a.toBytes = b.toBytes → a = b
  verify : ∀ (v : Verifier) (token : SpendToken) (nonce : Bytes 32),
    token.challengeDigest = a.digest C → v.verify C token b = .ok nonce → a = b
  lookup : ∀ recent, challengeForDigest C recent (a.digest C) = some b → a = b

/-- What is looked up by a digest has that digest. -/
theorem digest_of_challengeForDigest {recent : List TokenChallenge} {digest : Bytes 32}
    {ch : TokenChallenge} (h : challengeForDigest C recent digest = some ch) :
    ch.digest C = digest := by
  unfold challengeForDigest at h
  have hfound := List.find?_some h
  simpa using hfound

/-- A token is accepted only for a challenge with the digest in it. -/
theorem Verifier.challengeDigest_of_verify {v : Verifier} {token : SpendToken}
    {ch : TokenChallenge} {nonce : Bytes 32} (h : v.verify C token ch = .ok nonce) :
    token.challengeDigest = ch.digest C := by
  simp only [Verifier.verify, Outcome.bind_eq_ok, Outcome.require_eq_ok] at h
  obtain ⟨_, _, _, hdigest, _⟩ := h
  exact hdigest

/-- Where equal digests mean equal challenges, none is taken for another one. -/
theorem identified_of_digest {a b : TokenChallenge} (h : a.digest C = b.digest C → a = b) :
    Identified C a b where
  bytes hbytes := h (congrArg C.sha256 hbytes)
  verify _ _ _ hminted hok := h (hminted.symm.trans (Verifier.challengeDigest_of_verify hok))
  lookup _ hfound := h (digest_of_challengeForDigest hfound).symm

/--
**Challenge bytes identify a challenge as far as its lengths are written in full.** Of two
challenges with the same bytes the first identifies the second exactly when the lengths of their
issuer names and contexts exceed the fields equally often. Any two challenges of which this is true
are told apart, as long as SHA-256 does not collide on their encodings.
-/
theorem identified_iff (a b : TokenChallenge) :
    (a.toBytes = b.toBytes → (Identified C a b ↔ TokenChallenge.SameOverflow a b)) ∧
      (TokenChallenge.SameOverflow a b → C.CollisionFree {a.toBytes, b.toBytes} →
        Identified C a b) := by
  refine ⟨fun hbytes => ?_, fun hsame hM => ?_⟩
  · rw [← TokenChallenge.toBytes_eq_iff hbytes]
    exact ⟨fun h => h.bytes hbytes, fun heq => identified_of_digest fun _ => heq⟩
  · refine identified_of_digest fun hdigest => ?_
    have hbytes : a.toBytes = b.toBytes := hM (.inl rfl) (.inr rfl) hdigest
    exact (TokenChallenge.toBytes_eq_iff hbytes).mpr hsame

/-- A challenge without a context, for an origin of 256 bytes. -/
def longOrigin : TokenChallenge where
  tokenType := tokenType
  issuerName := "issuer.example"
  redemptionContext := []
  originInfo := String.ofList (List.replicate 254 'a' ++ List.replicate 2 (Char.ofNat 0))

/-- A challenge with 256 bytes of context, for an origin without a name. The context holds the
length and the first bytes of the other origin. -/
def longContext : TokenChallenge where
  tokenType := tokenType
  issuerName := "issuer.example"
  redemptionContext := 1 :: 0 :: List.replicate 254 97
  originInfo := ""

theorem toBytes_longOrigin : longOrigin.toBytes = longContext.toBytes := by decide +kernel

theorem identified_iff_longOrigin :
    (Identified Crypto.sample longOrigin longContext
        ↔ TokenChallenge.SameOverflow longOrigin longContext) ∧
      Identified Crypto.sample (.new "issuer.example" "a.example")
        (.new "issuer.example" "b.example") :=
  ⟨(identified_iff longOrigin longContext).1 toBytes_longOrigin,
    (identified_iff (.new "issuer.example" "a.example") (.new "issuer.example" "b.example")).2
      ⟨rfl, rfl⟩ (@Crypto.collisionFree_of_list _ _
        [(TokenChallenge.new "issuer.example" "a.example").toBytes,
          (TokenChallenge.new "issuer.example" "b.example").toBytes]
        (by simp) (by decide +kernel))⟩

/--
The two challenges are for different origins and have the same bytes: a token that was minted for
the one is accepted for the other, and its digest finds the other one.
-/
theorem longOrigin_confused :
    longOrigin ≠ longContext ∧ longOrigin.toBytes = longContext.toBytes ∧
      ¬ Identified Crypto.sample longOrigin longContext ∧
      Verifier.verify Crypto.sample ⟨(Issuer.generate Crypto.sample [1] 1).public⟩
        (mintedToken Crypto.sample (Issuer.generate Crypto.sample [1] 1) longOrigin
          (sampleSigningKey, sampleSigningKey)) longContext = .ok sampleSigningKey ∧
      challengeForDigest Crypto.sample [longContext] (longOrigin.digest Crypto.sample)
        = some longContext := by
  have hne : longOrigin ≠ longContext := by
    intro h
    exact absurd (congrArg TokenChallenge.redemptionContext h) (by decide)
  have hdigest : longOrigin.digest Crypto.sample = longContext.digest Crypto.sample :=
    congrArg Crypto.sample.sha256 toBytes_longOrigin
  refine ⟨hne, toBytes_longOrigin, fun h => hne (h.bytes toBytes_longOrigin), ?_, ?_⟩
  · rw [← Verifier.verify_congr hdigest]
    exact (verify_mintedToken Crypto.sample Pomfrit.sample_complete [1] 1 longOrigin
      (sampleSigningKey, sampleSigningKey)).1
  · rw [hdigest]
    simp [challengeForDigest]

end EatPass
