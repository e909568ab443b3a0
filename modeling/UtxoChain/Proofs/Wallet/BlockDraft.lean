import UtxoChain.Proofs.Ledger.Conservation
import UtxoChain.Proofs.Rules.BlockIndex
import UtxoChain.Proofs.Rules.Proposal
import UtxoChain.Wallet.BlockDraft

/-!
# Blocks that are made from drafts

The block of a draft is rejected only for what was added to it. However many transactions a draft has
taken, it is the draft that was made of them at once (`BlockDraft.addTxs_ofTxs`), so its header commits
to them. The header was placed where the check looks for it, and the mint transaction pushes the index
of that header and spends nothing. What is left of the check of the block is the check of the added
transactions (`BlockDraft.verify_eq_verifyTxs`).
-/

namespace UtxoChain

/-! ## The mint transaction of a draft -/

namespace Tx

variable (rules : Rules) (lookup : OutputLookup) (mintScript script : Script) (amount : UInt64)

/-- A transaction that mints one output keeps the rules, whatever is known. -/
theorem verify_mint : (Tx.mint mintScript [] [⟨amount, script⟩] 0).verify rules lookup = .ok () := by
  rw [verify_eq_ok_iff, verifyScripts_eq_ok_iff, verifyAmounts_eq_ok_iff]
  refine ⟨⟨?_, ?_, ?_, ?_, ?_⟩, ?_, .inl rfl⟩
  · exact List.cons_ne_nil _ _
  · exact List.cons_ne_nil _ _
  · show TxOut.sum [⟨amount, script⟩] < 2 ^ 64
    rw [TxOut.sum_cons, TxOut.sum_nil, Nat.add_zero]
    exact amount.toNat_lt
  · exact List.nodup_singleton _
  · intro hMint
    exact absurd (show true = false from hMint) (by decide)
  · intro index input hInput
    have hMem := List.mem_of_getElem? hInput
    rw [List.mem_singleton.1 hMem]
    exact .inl rfl

end Tx

/-! ## The header of a draft -/

namespace BlockHeader

variable {params : Params} {prev adjustment : Option BlockHeader} {header : BlockHeader}

/-- A header has its place: it starts a chain, or it follows the header before it. -/
def Placed (params : Params) (prev adjustment : Option BlockHeader) (header : BlockHeader) : Prop :=
  match prev with
  | none => header.isGenesis = true
  | some prev => Follows params adjustment prev header

/-- The place of a header depends neither on what it commits to nor on its nonce. -/
theorem Placed.of_fill (h : Placed params prev adjustment header) (merkleRoot nonce : Hash256) :
    Placed params prev adjustment ((header.withMerkleRoot merkleRoot).withNonce nonce) := by
  cases prev with
  | none => exact h
  | some prev =>
    have hFollows : Follows params adjustment prev header := h
    exact ⟨hFollows.prevBlockId_eq, hFollows.index_eq, hFollows.timestamp_le,
      hFollows.params_valid, hFollows.nextTarget_eq⟩

/-- A header that has its place is accepted there, if it is worked for or starts a chain. -/
theorem Placed.verify (h : Placed params prev adjustment header)
    (hWork : prev.isSome = true → header.meetsTarget = true) :
    header.verify params prev adjustment = .ok () := by
  cases prev with
  | none => exact verify_none_eq_ok_iff.2 h
  | some prev => exact verify_some_eq_ok_iff.2 ⟨hWork rfl, h⟩

end BlockHeader

/-! ## Drafts -/

namespace BlockDraft

variable {params : Params} {prev adjustment : Option BlockHeader} {draft : BlockDraft}

/-- The draft with some more transactions. -/
def addTxs (draft : BlockDraft) (txs : List Tx) : BlockDraft :=
  txs.foldl addTx draft

/-- The block is one of a draft, with the nonce of the draft or another. -/
def Builds (draft : BlockDraft) (block : Block) : Prop :=
  block = draft.build ∨ ∃ nonce, block = draft.buildWithNonce nonce

/-- A draft is started without a predecessor, or after one and not before its time. -/
inductive Starts (params : Params) :
    Option BlockHeader → Option BlockHeader → BlockDraft → Prop
  /-- The draft is of the first block of a chain. -/
  | genesis {adjustment : Option BlockHeader} {timestamp : UInt64} {target : Hash256}
      {script : Script} {amount : UInt64} {draft : BlockDraft}
      (h : BlockDraft.genesis timestamp target script amount = .ok draft) :
      Starts params none adjustment draft
  /-- The draft is of the block after another. -/
  | child {prev : BlockHeader} {adjustment : Option BlockHeader} {timestamp : UInt64}
      {script : Script} {amount : UInt64} {draft : BlockDraft}
      (h : BlockDraft.child prev adjustment timestamp params script amount = .ok draft)
      (timestamp_le : prev.timestamp ≤ timestamp) :
      Starts params (some prev) adjustment draft

/-- What a draft is made of: a header that has its place, and a transaction that mints one output at
the index of that header. -/
structure MadeOf (params : Params) (prev adjustment : Option BlockHeader) (header : BlockHeader)
    (mint : Tx) : Prop where
  /-- The header has its place. -/
  placed : header.Placed params prev adjustment
  /-- The transaction mints one output, and its input is made for the index. -/
  mints : ∃ mintScript script amount, Script.mintInput header.index [] = .ok mintScript ∧
    mint = Tx.mint mintScript [] [⟨amount, script⟩] 0

/-- A draft with a mint transaction is made of it and the header. -/
theorem exists_mint_of_withMint {header : BlockHeader} {script : Script} {amount : UInt64}
    (h : withMint header script amount = .ok draft) :
    ∃ mintScript, Script.mintInput header.index [] = .ok mintScript ∧
      draft = ofTxs header [Tx.mint mintScript [] [⟨amount, script⟩] 0] := by
  obtain ⟨mintScript, hScript, hDraft⟩ := bind_eq_ok_iff.1 h
  exact ⟨mintScript, hScript, (Except.ok.inj hDraft).symm⟩

/-- Every header can be given a mint transaction: there is a mint input for its index. -/
theorem exists_withMint (header : BlockHeader) (script : Script) (amount : UInt64) :
    ∃ draft, withMint header script amount = .ok draft := by
  obtain ⟨mintScript, hScript⟩ := Script.exists_mintInput header.index [] (Nat.zero_le _)
  exact ⟨_, bind_eq_ok_iff.2 ⟨mintScript, hScript, rfl⟩⟩

/-- The first block of a chain can always be drafted. -/
theorem exists_genesis (timestamp : UInt64) (target : Hash256) (script : Script)
    (amount : UInt64) : ∃ draft, genesis timestamp target script amount = .ok draft :=
  exists_withMint _ script amount

/-- The block after another can be drafted exactly if a header can be proposed there. -/
theorem exists_child_iff {prev : BlockHeader} {timestamp : UInt64} {script : Script}
    {amount : UInt64} :
    (∃ draft, child prev adjustment timestamp params script amount = .ok draft) ↔
      ∃ header, prev.successor adjustment timestamp params = .ok header := by
  constructor
  · rintro ⟨draft, h⟩
    obtain ⟨header, hHeader, -⟩ := bind_eq_ok_iff.1 h
    exact ⟨header, mapError_eq_ok_iff.1 hHeader⟩
  · rintro ⟨header, hHeader⟩
    obtain ⟨draft, hDraft⟩ := exists_withMint header script amount
    exact ⟨draft, bind_eq_ok_iff.2 ⟨header, mapError_eq_ok_iff.2 hHeader, hDraft⟩⟩

/-- A draft that is started is made of a header that has its place and a transaction that mints at the
index of the header. -/
theorem Starts.exists_madeOf (h : Starts params prev adjustment draft) :
    ∃ header mint, MadeOf params prev adjustment header mint ∧ draft = ofTxs header [mint] := by
  cases h with
  | genesis h =>
    obtain ⟨mintScript, hScript, hDraft⟩ := exists_mint_of_withMint h
    refine ⟨_, _, ⟨?_, mintScript, _, _, hScript, rfl⟩, hDraft⟩
    show BlockHeader.isGenesis _ = true
    rfl
  | child h hTime =>
    obtain ⟨header, hHeader, h⟩ := bind_eq_ok_iff.1 h
    rw [mapError_eq_ok_iff] at hHeader
    obtain ⟨mintScript, hScript, hDraft⟩ := exists_mint_of_withMint h
    have hFollows := BlockHeader.follows_of_successor hHeader hTime
    exact ⟨header, _, ⟨hFollows, mintScript, _, _, hScript, rfl⟩, hDraft⟩

/-- A draft that takes a transaction is the draft of all its transactions at once. -/
theorem addTx_ofTxs (header : BlockHeader) (txs : List Tx) (tx : Tx) :
    (ofTxs header txs).addTx tx = ofTxs header (txs ++ [tx]) :=
  rfl

/-- A draft that takes some transactions one by one is the draft of them all at once. -/
theorem addTxs_ofTxs (header : BlockHeader) (txs added : List Tx) :
    (ofTxs header txs).addTxs added = ofTxs header (txs ++ added) := by
  induction added generalizing txs with
  | nil =>
    rw [List.append_nil]
    rfl
  | cons tx added ih =>
    change ((ofTxs header txs).addTx tx).addTxs added = _
    rw [addTx_ofTxs, ih, List.append_assoc, List.singleton_append]

/-- A block of a draft holds its transactions under its header with some nonce. -/
theorem exists_nonce_of_builds {header : BlockHeader} {txs : List Tx} {block : Block}
    (h : (ofTxs header txs).Builds block) :
    ∃ nonce, block = ⟨(header.withMerkleRoot (merkleRootOf txs)).withNonce nonce, txs⟩ := by
  rcases h with hBuild | hNonce
  · exact ⟨header.nonce, hBuild⟩
  · exact hNonce

end BlockDraft

/-! ## The check of a block of a draft -/

/-- A row of transactions from a position on is rejected for one at that position or later. -/
theorem Block.exists_fault_of_verifyTxs {rules : Rules} {visible : Nat → OutputLookup}
    {start : Nat} {items : List (Tx × Option OutPoint)} {rejection : Rejection}
    (h : verifyTxs rules visible start items = .error rejection) :
    ∃ position fault, rejection = .tx position fault ∧ start ≤ position := by
  induction items generalizing start with
  | nil => exact absurd h nofun
  | cons item items ih =>
    obtain ⟨tx, doubleSpend⟩ := item
    cases doubleSpend with
    | some point =>
      rcases andThen_eq_error_iff.1 h with hAgain | ⟨hNone, -⟩
      · exact ⟨start, _, (Except.error.inj hAgain).symm, Nat.le_refl start⟩
      · exact absurd hNone nofun
    | none =>
      rcases andThen_eq_error_iff.1 h with hFirst | ⟨-, hRest⟩
      · obtain ⟨fault, -, hFault⟩ := mapError_eq_error_iff.1 hFirst
        exact ⟨start, fault, hFault.symm, Nat.le_refl start⟩
      · obtain ⟨position, fault, hRejection, hLe⟩ := ih hRest
        exact ⟨position, fault, hRejection, Nat.le_of_succ_le hLe⟩

namespace BlockDraft

variable {params : Params} {rules : Rules} {lookup : OutputLookup}
  {prev adjustment : Option BlockHeader} {header : BlockHeader} {mint : Tx} {txs : List Tx}

/-- A block is well-framed under a header with its Merkle root, if a transaction that mints at the
index of the header stands first and no other mints. -/
theorem MadeOf.wellFramed (h : MadeOf params prev adjustment header mint)
    (hAdded : ∀ tx ∈ txs, tx.isMint = false) (nonce : Hash256) :
    Block.WellFramed
      ⟨(header.withMerkleRoot (merkleRootOf (mint :: txs))).withNonce nonce, mint :: txs⟩ := by
  obtain ⟨mintScript, script, amount, hScript, rfl⟩ := h.mints
  refine ⟨List.cons_ne_nil _ _, ?_, ?_, rfl⟩
  · intro position tx hTx
    cases position with
    | zero =>
      rw [← Option.some.inj hTx]
      exact iff_of_true rfl rfl
    | succ position =>
      have hMem : tx ∈ txs := List.mem_of_getElem? hTx
      rw [hAdded tx hMem]
      exact iff_of_false nofun nofun
  · intro first hFirst
    rw [← Option.some.inj hFirst]
    exact Script.startsWithBlockIndex_of_mintInput hScript

/-- Of the check of a block that is made of an accepted header and a mint transaction the check of the
other transactions is left. -/
theorem MadeOf.verify_eq_verifyTxs (h : MadeOf rules.params prev adjustment header mint)
    (hAdded : ∀ tx ∈ txs, tx.isMint = false) {block : Block} {nonce : Hash256}
    (hBlock : block =
      ⟨(header.withMerkleRoot (merkleRootOf (mint :: txs))).withNonce nonce, mint :: txs⟩)
    (hWork : prev.isSome = true → block.header.meetsTarget = true) :
    block.verify rules lookup prev adjustment =
      Block.verifyTxs rules (Block.visibleAt (Block.createdOutputs block.txs) lookup) 1
        (txs.zip (Block.doubleSpends [] txs)) := by
  have hTxs : block.txs = mint :: txs := by rw [hBlock]
  have hHeader : block.header.verify rules.params prev adjustment = .ok () := by
    refine BlockHeader.Placed.verify ?_ hWork
    rw [hBlock]
    exact h.placed.of_fill _ _
  have hFrame : block.verifyFrame = .ok () := by
    rw [Block.verifyFrame_eq_ok_iff, hBlock]
    exact h.wellFramed hAdded nonce
  -- The mint transaction spends nothing and keeps the rules, so the check goes on to position 1.
  obtain ⟨mintScript, script, amount, -, hMint⟩ := h.mints
  have hSpent : mint.spentPoints = [] := by
    rw [hMint]
    rfl
  have hFirst : mint.verify rules
      (Block.visibleAt (Block.createdOutputs (mint :: txs)) lookup 0) = .ok () := by
    rw [hMint]
    exact Tx.verify_mint _ _ _ _ _
  unfold Block.verify
  rw [hHeader, hFrame, hTxs, Block.doubleSpends, hSpent, List.zip_cons_cons]
  change (do
    (mint.verify rules (Block.visibleAt (Block.createdOutputs (mint :: txs)) lookup 0)).mapError
      (Rejection.tx 0)
    Block.verifyTxs rules _ 1 _) = _
  rw [hFirst]
  rfl

/-- The block of a draft is never rejected for its header, its frame or its mint transaction. It is
accepted exactly when the added transactions spend no outpoint twice, and each of them is accepted
against what is visible at its position. -/
theorem verify_of_builds (rules : Rules) (lookup : OutputLookup)
    {prev adjustment : Option BlockHeader} {draft : BlockDraft}
    (hStarts : Starts rules.params prev adjustment draft) {txs : List Tx}
    (hAdded : ∀ tx ∈ txs, tx.isMint = false) {block : Block}
    (hBuilds : (draft.addTxs txs).Builds block)
    (hWork : prev.isSome = true → block.header.meetsTarget = true) :
    (∀ rejection, block.verify rules lookup prev adjustment = .error rejection →
      ∃ position fault, rejection = .tx position fault ∧ position ≠ 0) ∧
    (block.verify rules lookup prev adjustment = .ok () ↔
      (txs.flatMap Tx.spentPoints).Nodup ∧
        ∀ (position : Nat) (tx : Tx), txs[position]? = some tx →
          tx.verify rules (Block.visibleAt (Block.createdOutputs block.txs) lookup (position + 1))
            = .ok ()) := by
  obtain ⟨header, mint, hMade, rfl⟩ := hStarts.exists_madeOf
  rw [addTxs_ofTxs, List.singleton_append] at hBuilds
  obtain ⟨nonce, hBlock⟩ := exists_nonce_of_builds hBuilds
  rw [hMade.verify_eq_verifyTxs hAdded hBlock hWork]
  constructor
  · intro rejection hRejected
    obtain ⟨position, fault, hRejection, hLe⟩ := Block.exists_fault_of_verifyTxs hRejected
    exact ⟨position, fault, hRejection, Nat.ne_of_gt hLe⟩
  · rw [Block.verifyTxs_eq_ok_iff]
    simp only [Nat.add_comm 1, List.not_mem_nil, not_false_eq_true, implies_true, true_and]

end BlockDraft

namespace Sample

/-- The transaction that mints after the first header of a run. -/
def nextMint : Tx := Tx.mint ⟨[.ofOpcode .op1]⟩ [] [⟨50, lock⟩] 0

/-- The draft of the block after that header. -/
def nextDraft : BlockDraft :=
  .ofTxs ⟨BlockHeader.proposedVersion, firstHeader.id, FixedBytes.zero, 112, firstHeader.target,
    FixedBytes.zero, 1⟩ [nextMint]

/-- The transaction that spends what is minted there and the known output. -/
def nextSpend : Tx :=
  ⟨0, [⟨⟨nextMint.id, 0⟩, .empty, 0⟩, ⟨point, .empty, 0⟩], [⟨57, lock⟩], 0⟩

/-- The draft takes the transaction, and its block is accepted. -/
theorem verify_nextDraft :
    BlockDraft.Starts rules.params (some firstHeader) none nextDraft ∧
      (nextDraft.addTxs [nextSpend]).build.verify rules known.get? (some firstHeader) none
        = .ok () := by
  have hDraft : BlockDraft.child firstHeader none 112 rules.params lock 50 = .ok nextDraft := by
    decide +kernel
  have hStarts : BlockDraft.Starts rules.params (some firstHeader) none nextDraft :=
    .child hDraft (by decide +kernel)
  have hAdded : ∀ tx ∈ [nextSpend], tx.isMint = false := by decide +kernel
  have hWork : (nextDraft.addTxs [nextSpend]).build.header.meetsTarget = true := by decide +kernel
  have hVerify := BlockDraft.verify_of_builds rules known.get? hStarts hAdded (.inl rfl)
    fun _ => hWork
  refine ⟨hStarts, hVerify.2.2 ⟨by decide +kernel, ?_⟩⟩
  intro position tx hTx
  cases position with
  | zero =>
    obtain rfl : nextSpend = tx := Option.some.inj hTx
    decide +kernel
  | succ position => exact absurd hTx nofun

end Sample

end UtxoChain
