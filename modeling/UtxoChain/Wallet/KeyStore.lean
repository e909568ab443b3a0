import UtxoChain.Signature.Scheme

/-!
# Key stores

Key pairs under the hashes of their public keys. The hash of the first pair ever added is the
default; a later pair under a hash replaces an earlier one.
-/

namespace UtxoChain

/-- Key pairs under the hashes of their public keys. -/
structure KeyStore where
  /-- The hashes with their pairs, the latest first; no hash occurs twice. -/
  entries : List (Hash256 × KeyPair)
  /-- The hash of the first pair. -/
  defaultHash : Option Hash256
deriving DecidableEq, Inhabited

namespace KeyStore

/-- The store without keys. -/
def empty : KeyStore := ⟨[], none⟩

/-- The number of pairs. -/
def size (store : KeyStore) : Nat :=
  store.entries.length

/-- The pair under a hash. -/
def get? (store : KeyStore) (hash : Hash256) : Option KeyPair :=
  store.entries.lookup hash

/-- The store with a pair under the hash of its public key. -/
def insert (store : KeyStore) (pair : KeyPair) : KeyStore :=
  let others := store.entries.filter fun entry => entry.1 != pair.hash
  ⟨(pair.hash, pair) :: others, store.defaultHash.or (some pair.hash)⟩

/-- The store with the pair of a secret, and the hash under which it stands. A secret may be given or
freshly drawn. -/
def insertSecret (store : KeyStore) (scheme : SignatureScheme) (secret : SecretKey) :
    Except Error (KeyStore × Hash256) := do
  let pair ← KeyPair.ofSecret scheme secret
  return (store.insert pair, pair.hash)

end KeyStore

end UtxoChain
