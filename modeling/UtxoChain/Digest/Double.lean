import UtxoChain.Digest.Blake3

/-!
# Double hashes

Ids and commitments are double hashes: the hash of the hash of what they name.
-/

namespace UtxoChain

/-- The hash of a byte string, taken once. -/
def singleHash (bytes : Bytes) : Hash256 :=
  Blake3.hash bytes

/-- The hash of the hash of a byte string. -/
def doubleHash (bytes : Bytes) : Hash256 :=
  singleHash (singleHash bytes).toBytes

end UtxoChain
