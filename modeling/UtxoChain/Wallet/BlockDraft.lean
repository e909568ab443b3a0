import UtxoChain.Chain.Retarget

/-!
# Block drafts

A draft starts from a mint transaction for its index and takes further transactions. Its header
commits to the transactions at all times; the nonce is left to the search for work.
-/

namespace UtxoChain

/-- A block that is being put together. -/
structure BlockDraft where
  /-- The header, which commits to the transactions. -/
  header : BlockHeader
  /-- The transactions so far, the mint transaction first. -/
  txs : List Tx
deriving DecidableEq, Inhabited

namespace BlockDraft

/-- The draft of some transactions under a header, which is made to commit to them. -/
def ofTxs (header : BlockHeader) (txs : List Tx) : BlockDraft :=
  ⟨header.withMerkleRoot (merkleRootOf txs), txs⟩

/-- The draft under a header with a mint transaction of one output. -/
def withMint (header : BlockHeader) (script : Script) (amount : UInt64) :
    Except Error BlockDraft := do
  let mintScript ← Script.mintInput header.index []
  return ofTxs header [Tx.mint mintScript [] [⟨amount, script⟩] 0]

/-- The draft of the first block of a chain. -/
def genesis (timestamp : UInt64) (target : Hash256) (script : Script) (amount : UInt64) :
    Except Error BlockDraft :=
  withMint ⟨BlockHeader.proposedVersion, FixedBytes.zero, FixedBytes.zero, timestamp, target,
    FixedBytes.zero, 0⟩ script amount

/-- The draft of the block after `prev`. -/
def child (prev : BlockHeader) (adjustment : Option BlockHeader) (timestamp : UInt64)
    (params : Params) (script : Script) (amount : UInt64) : Except Error BlockDraft := do
  let header ← (prev.successor adjustment timestamp params).mapError RetargetFault.toError
  withMint header script amount

/-- The draft with one more transaction. -/
def addTx (draft : BlockDraft) (tx : Tx) : BlockDraft :=
  ofTxs draft.header (draft.txs ++ [tx])

/-- The block of a draft. -/
def build (draft : BlockDraft) : Block :=
  ⟨draft.header, draft.txs⟩

/-- The block of a draft with a nonce. -/
def buildWithNonce (draft : BlockDraft) (nonce : Hash256) : Block :=
  ⟨draft.header.withNonce nonce, draft.txs⟩

end BlockDraft

end UtxoChain
