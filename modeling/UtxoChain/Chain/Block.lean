import UtxoChain.Chain.Merkle
import UtxoChain.Tx.Format

/-!
# Headers and blocks

A header names its predecessor by id, commits to the transactions of its block by their Merkle root,
and carries the target that its digest must stay below. It takes 148 bytes; the id is their double
hash and the digest their single hash.
-/

namespace UtxoChain

/-- The head of a block. -/
structure BlockHeader where
  /-- The version of the format. -/
  version : UInt32
  /-- The id of the predecessor. -/
  prevBlockId : Hash256
  /-- The root of the tree over the ids of the transactions. -/
  merkleRoot : Hash256
  /-- The time, in seconds. -/
  timestamp : UInt64
  /-- The number that the digest must stay below, most significant byte first. -/
  target : Hash256
  /-- Free bytes by which the digest is varied. -/
  nonce : Hash256
  /-- The place in the chain, counted from zero. -/
  index : UInt64
deriving DecidableEq, Inhabited

namespace BlockHeader

/-- The bytes that write a header. -/
def encode (header : BlockHeader) : Bytes :=
  Bytes.ofNatBE 4 header.version.toNat ++ header.prevBlockId.toBytes ++ header.merkleRoot.toBytes
    ++ Bytes.ofNatBE 8 header.timestamp.toNat ++ header.target.toBytes ++ header.nonce.toBytes
    ++ Bytes.ofNatBE 8 header.index.toNat

/-- The header at the cursor. -/
def decoder : Decoder BlockHeader := do
  let version ← Decoder.word32
  let prevBlockId ← Decoder.fixed 32
  let merkleRoot ← Decoder.fixed 32
  let timestamp ← Decoder.word64
  let target ← Decoder.fixed 32
  let nonce ← Decoder.fixed 32
  let index ← Decoder.word64
  return ⟨version, prevBlockId, merkleRoot, timestamp, target, nonce, index⟩

instance : Wire BlockHeader := ⟨encode, decoder⟩

/-- The digest, which is the single hash. -/
def hash (header : BlockHeader) : Hash256 :=
  singleHash header.encode

/-- The id, which is the double hash. -/
def id (header : BlockHeader) : Hash256 :=
  doubleHash header.encode

/-- The header starts a chain: it has index zero and names no predecessor. -/
def isGenesis (header : BlockHeader) : Bool :=
  header.index == 0 && header.prevBlockId.isZero

/-- The digest is below the target, both read as numbers. -/
def meetsTarget (header : BlockHeader) : Bool :=
  header.hash.toNat < header.target.toNat

/-- The header with another nonce. -/
def withNonce (header : BlockHeader) (nonce : Hash256) : BlockHeader :=
  { header with nonce }

/-- The header with another Merkle root. -/
def withMerkleRoot (header : BlockHeader) (merkleRoot : Hash256) : BlockHeader :=
  { header with merkleRoot }

end BlockHeader

/-- A header with its transactions. -/
structure Block where
  /-- The header. -/
  header : BlockHeader
  /-- The transactions in order. -/
  txs : List Tx
deriving DecidableEq, Inhabited

/-- The Merkle root of a list of transactions. -/
def merkleRootOf (txs : List Tx) : Hash256 :=
  (MerkleTree.ofLeaves (txs.map Tx.id)).root

namespace Block

/-- The bytes that write a block. -/
def encode (block : Block) : Bytes :=
  block.header.encode ++ Bytes.countedList Tx.encode block.txs

/-- The block at the cursor. -/
def decoder : Decoder Block := do
  let header ← BlockHeader.decoder
  let txs ← Decoder.counted Tx.decoder
  return ⟨header, txs⟩

instance : Wire Block := ⟨encode, decoder⟩

/-- The root that the transactions have, whatever the header says. -/
def merkleRoot (block : Block) : Hash256 :=
  merkleRootOf block.txs

/-- The header commits to the transactions. -/
def hasValidMerkleRoot (block : Block) : Bool :=
  block.merkleRoot == block.header.merkleRoot

/-- The id of the header. -/
def id (block : Block) : Hash256 :=
  block.header.id

end Block

end UtxoChain
