import Mathlib.Data.Set.Function
import EatPass.Infra.Bytes

/-!
# The cryptographic crates

`sha2`, `faest` and the PoMFRIT implementation under `third_party/` are outside the repository.
The model takes them as one parameter. Nothing is assumed of it here: what a result relies on
(a complete signature, no collision among the messages a run hashes) is a hypothesis of that
result.
-/

namespace EatPass

open Infra

/-- FAEST-128f, as `faest_sig.rs` calls it. -/
structure Faest where
  SigningKey : Type
  VerificationKey : Type
  /-- `signing_key_from_seed`. -/
  signingKeyFromSeed : Bytes 32 → SigningKey
  /-- `public_bytes_from_sk`. -/
  publicBytesFromSk : SigningKey → Bytes 32
  /-- `verifying_key_from_bytes`; `none` is a byte string that is no key. -/
  verifyingKeyFromBytes : Bytes 32 → Option VerificationKey
  sign : SigningKey → List UInt8 → List UInt8
  /-- `verify`; a signature that does not decode is refused like one that does not verify. -/
  verify : VerificationKey → List UInt8 → List UInt8 → Bool

/--
PoMFRIT, as `pomfrit/src/lib.rs` calls it.

`sign_1` and `sign_3` take `additional_r` by mutable reference, so they return it as well. The
randomness of `keygen` is its argument.
-/
structure Pomfrit where
  ProofState : Type
  /-- `keygen`: the public and the secret key. -/
  keygen : List UInt8 → List UInt8 × List UInt8
  expandPk : List UInt8 → List UInt8
  /-- `sign_1`: the blinded message, the prover's state and `additional_r`. -/
  sign1 : List UInt8 → Bytes 32 → List UInt8 × ProofState × Bytes 32
  /-- `sign_2`: the blind signature on a blinded message. -/
  sign2 : List UInt8 → List UInt8 → List UInt8
  /-- `sign_3`: the proof and `additional_r`. -/
  sign3 : List UInt8 → List UInt8 → List UInt8 → ProofState → Bytes 32 → List UInt8 × Bytes 32
  verify : List UInt8 → List UInt8 → List UInt8 → Bytes 32 → Bool

/-- Everything the program calls and does not contain. -/
structure Crypto where
  sha256 : List UInt8 → Bytes 32
  faest : Faest
  pomfrit : Pomfrit

/-! ## What results may rely on -/

/-- **FAEST is complete**: what a key signs verifies under its public bytes. -/
def Faest.Complete (f : Faest) : Prop :=
  ∀ sk : f.SigningKey, ∃ vk, f.verifyingKeyFromBytes (f.publicBytesFromSk sk) = some vk ∧
    ∀ msg, f.verify vk msg (f.sign sk msg) = true

/--
**PoMFRIT is complete**: a message blinded by the client, signed under a generated key and
finalised by the client carries a proof that verifies under the expanded key. The proof is
not empty.
-/
def Pomfrit.Complete (p : Pomfrit) : Prop :=
  ∀ (coins msg : List UInt8) (r : Bytes 32),
    let (pk, sk) := p.keygen coins
    let (bm, st, r₁) := p.sign1 msg r
    let (proof, r₂) := p.sign3 pk (p.expandPk pk) (p.sign2 sk bm) st r₁
    p.verify (p.expandPk pk) msg proof r₂ = true ∧ proof ≠ []

/--
**`sign_3` reports whether a blind signature is valid**: the proof made from it verifies exactly
when it is a valid signature under the key on the blinded message. A proof that verifies is not
empty.
-/
def Pomfrit.ReportsValidity (p : Pomfrit) (valid : List UInt8 → List UInt8 → List UInt8 → Prop) :
    Prop :=
  ∀ (pk msg bsig : List UInt8) (r : Bytes 32),
    let (bm, st, r₁) := p.sign1 msg r
    let (proof, r₂) := p.sign3 pk (p.expandPk pk) bsig st r₁
    (p.verify (p.expandPk pk) msg proof r₂ = true ∧ proof ≠ []) ↔ valid pk bm bsig

/-- No two different messages of the set have the same SHA-256 digest. -/
def Crypto.CollisionFree (C : Crypto) (messages : Set (List UInt8)) : Prop :=
  Set.InjOn C.sha256 messages

/-- A signature verifies under the key on one of the messages at most. -/
def Faest.OneMessage (f : Faest) (vk : f.VerificationKey) (messages : Set (List UInt8)) : Prop :=
  ∀ m ∈ messages, ∀ m' ∈ messages, ∀ sig,
    f.verify vk m sig = true → f.verify vk m' sig = true → m = m'

/-- Messages that are listed and compared one by one do not collide. -/
theorem Crypto.collisionFree_of_list {C : Crypto} {M : Set (List UInt8)}
    {messages : List (List UInt8)} (hM : ∀ m ∈ M, m ∈ messages)
    (h : ∀ a ∈ messages, ∀ b ∈ messages, C.sha256 a = C.sha256 b → a = b) : C.CollisionFree M :=
  fun a ha b hb => h a (hM a ha) b (hM b hb)

end EatPass
