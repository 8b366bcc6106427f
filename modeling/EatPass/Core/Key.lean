import EatPass.Core.Crypto

/-!
# Issuer keys

`IssuerPublicKey` is what the issuer publishes at `/keys`, `Issuer` the key pair it signs with.
The `token_key_id` commits to the key bytes alone: neither `key_version` nor `alg` enters the hash.
-/

namespace EatPass

open Infra

/-- `pomfrit::ALG`. -/
def alg : String := "PoMFRIT-MAYO1-FV1-128"

/-- `pomfrit::TOKEN_TYPE`, which is not the `0x0002` of RFC 9578. -/
def tokenType : UInt16 := 0x4550

structure IssuerPublicKey where
  keyVersion : UInt32
  alg : String
  key : List UInt8
deriving DecidableEq

/-- A PoMFRIT key pair and the version it was generated for. -/
structure Issuer where
  sk : List UInt8
  pk : List UInt8
  keyVersion : UInt32
deriving DecidableEq

variable (C : Crypto)

/-- `IssuerPublicKey::token_key_id`, which never fails. -/
def IssuerPublicKey.tokenKeyId (pk : IssuerPublicKey) : Bytes 32 := C.sha256 pk.key

/-- `Issuer::generate`; the randomness of the key generation is an argument. -/
def Issuer.generate (coins : List UInt8) (keyVersion : UInt32) : Issuer where
  sk := (C.pomfrit.keygen coins).2
  pk := (C.pomfrit.keygen coins).1
  keyVersion := keyVersion

def Issuer.public (issuer : Issuer) : IssuerPublicKey where
  keyVersion := issuer.keyVersion
  alg := EatPass.alg
  key := issuer.pk

@[simp] theorem Issuer.public_keyVersion (issuer : Issuer) :
    issuer.public.keyVersion = issuer.keyVersion := rfl

@[simp] theorem Issuer.public_key (issuer : Issuer) : issuer.public.key = issuer.pk := rfl

@[simp] theorem Issuer.generate_keyVersion (coins : List UInt8) (v : UInt32) :
    (Issuer.generate C coins v).keyVersion = v := rfl

end EatPass
