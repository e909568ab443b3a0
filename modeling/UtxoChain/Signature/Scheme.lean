import UtxoChain.Curve.Ecdsa
import UtxoChain.Digest.Double
import UtxoChain.Error.Basic

/-!
# Signature schemes

What the rules and the wallet need of signatures: a deterministic signature of a digest, its check,
and the public key of a secret. The scheme in use is ECDSA over secp256k1; the rules hold for any.
-/

namespace UtxoChain

/-- The 32 bytes of a secret key. -/
structure SecretKey where
  /-- The bytes of the key. -/
  bytes : Hash256
deriving DecidableEq, Inhabited

/-- A secret is shown without its bytes. -/
def SecretKey.describe (_ : SecretKey) : String := "PrivKey(..)"

/-- Signatures of 32-byte digests. -/
structure SignatureScheme where
  /-- The signature of a digest by a secret. -/
  sign : Hash256 → SecretKey → Except Error CompactSignature
  /-- The signature of the digest is valid under the key. -/
  verify : Hash256 → CompactSignature → PublicKey → Bool
  /-- The public key of a secret. -/
  publicKey : SecretKey → Except Error PublicKey

/-- A secret that the group admits: from 1 to the order less 1. -/
def SecretKey.checked (secret : SecretKey) : Except Error Hash256 :=
  if Ecdsa.isScalar secret.bytes.toNat then .ok secret.bytes else .error .invalidKey

/-- ECDSA over secp256k1. -/
def SignatureScheme.secp256k1 : SignatureScheme where
  sign digest secret := do return Ecdsa.sign (← secret.checked) digest
  verify := Ecdsa.verify
  publicKey secret := do return Ecdsa.publicKey (← secret.checked)

/-- The hash that locks an output to a public key. -/
def pubKeyHash (key : Bytes) : Hash256 :=
  doubleHash key

/-- A secret with its public key. -/
structure KeyPair where
  /-- The secret. -/
  secret : SecretKey
  /-- The public key. -/
  publicKey : PublicKey
deriving DecidableEq, Inhabited

namespace KeyPair

/-- The pair of a secret. -/
def ofSecret (scheme : SignatureScheme) (secret : SecretKey) : Except Error KeyPair := do
  return ⟨secret, ← scheme.publicKey secret⟩

/-- The hash that locks outputs to the pair. -/
def hash (pair : KeyPair) : Hash256 :=
  pubKeyHash pair.publicKey.toBytes

end KeyPair

end UtxoChain
