import EatPass.Infra.Sha256
import EatPass.Core.Crypto

/-!
# A concrete instance of the cryptographic crates

SHA-256 itself, and small stand-ins for FAEST and PoMFRIT that are complete. A signature is the
digest of the public key and the message, a PoMFRIT proof the digest of the key and the message.
They can be forged, so nothing but completeness may be read off them. Statements about an
arbitrary `Crypto` are tried on `sample`.
-/

namespace EatPass

open Infra

def Faest.sample : Faest where
  SigningKey := Bytes 32
  VerificationKey := Bytes 32
  signingKeyFromSeed := id
  publicBytesFromSk sk := Sha256.digest sk.val
  verifyingKeyFromBytes := some
  sign sk msg := (Sha256.digest ((Sha256.digest sk.val).val ++ msg)).val
  verify vk msg sig := sig == (Sha256.digest (vk.val ++ msg)).val

def Pomfrit.sample : Pomfrit where
  ProofState := List UInt8
  keygen coins := (coins, coins)
  expandPk := id
  sign1 msg r := (msg, msg, r)
  sign2 sk bm := (Sha256.digest (sk ++ bm)).val
  sign3 _ _ bsig _ r := (bsig, r)
  verify epk msg proof _ := proof == (Sha256.digest (epk ++ msg)).val

def Crypto.sample : Crypto where
  sha256 := Sha256.digest
  faest := Faest.sample
  pomfrit := Pomfrit.sample

/-- A signing key of the stand-in. -/
def sampleSigningKey : Bytes 32 := ⟨List.replicate 32 7, by simp⟩

theorem Faest.sample_complete : Faest.sample.Complete := by
  intro sk
  exact ⟨Sha256.digest sk.val, rfl, fun msg => beq_self_eq_true _⟩

theorem Pomfrit.sample_complete : Pomfrit.sample.Complete := by
  intro coins msg r
  refine ⟨beq_self_eq_true _, ?_⟩
  intro h
  have hlen : (Sha256.digest (coins ++ msg)).val.length = 32 := (Sha256.digest _).property
  rw [show (Sha256.digest (coins ++ msg)).val = [] from h] at hlen
  exact absurd hlen (by decide)

end EatPass
