import UtxoChain.Tx.Sighash

/-!
# Remembered digests

Signing or verifying the inputs of one transaction needs its three digests again and again. A cache
holds those that are already known. Its stateful operations (`fetch`, `preimage`, `sighash`, `sign`,
`verifySignature`) fill the cells that they need; `subHash` reads without filling.
-/

namespace UtxoChain

/-- A transaction with those of its digests that are known. -/
structure DigestCache where
  /-- The transaction. -/
  tx : Tx
  /-- The digest of the outpoints, if it is known. -/
  prevouts : Option Hash256
  /-- The digest of the relative locks, if it is known. -/
  lockRels : Option Hash256
  /-- The digest of the outputs, if it is known. -/
  outputs : Option Hash256
deriving DecidableEq

namespace DigestCache

/-- The cache that knows nothing yet. -/
def ofTx (tx : Tx) : DigestCache :=
  ⟨tx, none, none, none⟩

/-- The digest in a cell. -/
def known? (cache : DigestCache) : SubHash → Option Hash256
  | .prevouts => cache.prevouts
  | .lockRels => cache.lockRels
  | .outputs => cache.outputs

/-- A digest, from its cell if that is filled. -/
def subHash (cache : DigestCache) (part : SubHash) : Hash256 :=
  (cache.known? part).getD (cache.tx.subHash part)

/-- The cache with one cell filled. -/
def fill (cache : DigestCache) (part : SubHash) : DigestCache :=
  let digest := cache.subHash part
  match part with
  | .prevouts => { cache with prevouts := some digest }
  | .lockRels => { cache with lockRels := some digest }
  | .outputs => { cache with outputs := some digest }

/-- The cache with every cell filled. -/
def fillAll (cache : DigestCache) : DigestCache :=
  ((cache.fill .prevouts).fill .lockRels).fill .outputs

/-- The bytes whose double hash is signed, read off the cache. -/
def preimageOf (cache : DigestCache) (request : SighashRequest) : Except MissingInput Bytes :=
  cache.tx.preimageWith cache.subHash request

/-- The digest that is signed, read off the cache. -/
def sighashOf (cache : DigestCache) (request : SighashRequest) : Except MissingInput Hash256 :=
  (cache.preimageOf request).map doubleHash

/-- A digest, remembered. -/
def fetch (part : SubHash) : StateM DigestCache Hash256 := fun cache =>
  let cache := cache.fill part
  (cache.subHash part, cache)

/-- The bytes whose double hash is signed; the digests they hold are remembered. A request for an
input that is not there fills nothing. -/
def preimage (request : SighashRequest) : StateM DigestCache (Except MissingInput Bytes) :=
  fun cache =>
    let cache :=
      if request.inputIndex < cache.tx.inputs.length then request.subHashes.foldl fill cache
      else cache
    (cache.preimageOf request, cache)

/-- The digest that is signed; the digests under it are remembered. -/
def sighash (request : SighashRequest) : StateM DigestCache (Except MissingInput Hash256) := do
  return (← preimage request).map doubleHash

/-- The signature of a request by a secret; the digests under it are remembered. -/
def sign (scheme : SignatureScheme) (secret : SecretKey) (request : SighashRequest) :
    StateM DigestCache (Except Error TxSignature) := do
  match ← sighash request with
  | .error missing => return .error missing.toError
  | .ok digest =>
    return (scheme.sign digest secret).map fun signature => ⟨request.hashType, signature⟩

/-- The signature is valid for the request under the key; the digests under it are remembered. -/
def verifySignature (scheme : SignatureScheme) (key : PublicKey) (signature : CompactSignature)
    (request : SighashRequest) : StateM DigestCache (Except MissingInput Bool) := do
  return (← sighash request).map fun digest => scheme.verify digest signature key

end DigestCache

end UtxoChain
