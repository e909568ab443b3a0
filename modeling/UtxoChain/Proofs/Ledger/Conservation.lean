import Mathlib.Algebra.Order.BigOperators.Group.List
import Mathlib.Algebra.Order.Group.Nat
import UtxoChain.Chain.OutputSet
import UtxoChain.Proofs.Ledger.Created
import UtxoChain.Proofs.Rules.Block

/-!
# An accepted block creates no money

What a block spends is distinct, comes from earlier transactions of the block or from the known
outputs, and is worth at least what the transactions after the first create. So the block adds at most
the output value of its first transaction, which mints (`Block.verify_conserves`). All sums are over
unbounded numbers.
-/

namespace UtxoChain.Block

/-- The outputs that the transactions of a block spend, one list for each transaction. -/
def spentOutputs (lookup : OutputLookup) (txs : List Tx) : List (List TxOut) :=
  txs.mapIdx fun position tx =>
    tx.spentPoints.filterMap (visibleAt (createdOutputs txs) lookup position)

/-- Where every outpoint has an output, picking the outputs out loses none. -/
theorem forall₂_filterMap {lookup : OutputLookup} {points : List OutPoint}
    (h : ∀ point ∈ points, ∃ output, lookup point = some output) :
    List.Forall₂ (fun point output => lookup point = some output) points
      (points.filterMap lookup) := by
  induction points with
  | nil => exact .nil
  | cons point rest ih =>
    obtain ⟨output, hOutput⟩ := h point List.mem_cons_self
    rw [List.filterMap_cons_some hOutput]
    exact .cons hOutput (ih fun point hPoint => h point (List.mem_cons_of_mem _ hPoint))

/-- The books of a block: what it spends, transaction by transaction, against what it creates. -/
structure Books (lookup : OutputLookup) (txs : List Tx) (spent : List (List TxOut)) : Prop where
  /-- No outpoint is spent twice in the whole block. -/
  distinct : (txs.flatMap Tx.spentPoints).Nodup
  /-- The first input of the first transaction is the sentinel. -/
  sentinel : ∃ mint input, txs[0]? = some mint ∧ mint.inputs[0]? = some input ∧ input.isMint = true
  /-- No other input is the sentinel. -/
  sentinel_unique : ∀ (position index : Nat) (tx : Tx) (input : TxIn), txs[position]? = some tx →
    tx.inputs[index]? = some input → input.isMint = true → position = 0 ∧ index = 0
  /-- Each transaction has its entry. -/
  length_eq : spent.length = txs.length
  /-- The entry of a transaction holds, for each outpoint that it spends, the output that it may spend
  there. -/
  spends : ∀ (position : Nat) (tx : Tx) (outputs : List TxOut), txs[position]? = some tx →
    spent[position]? = some outputs →
    List.Forall₂ (Available lookup txs position) tx.spentPoints outputs
  /-- Every transaction but the first creates at most the value that it spends. -/
  covered : ∀ (position : Nat) (tx : Tx) (outputs : List TxOut), position ≠ 0 →
    txs[position]? = some tx → spent[position]? = some outputs →
    TxOut.sum tx.outputs ≤ TxOut.sum outputs
  /-- The block creates at most the value that it spends and the output value of its first
  transaction. -/
  total : ∀ mint, txs.head? = some mint →
    (txs.map fun tx => TxOut.sum tx.outputs).sum ≤
      (spent.map TxOut.sum).sum + TxOut.sum mint.outputs

/-- If every transaction but the first creates at most the value that it spends, the block creates at
most the value that it spends and what the first creates. -/
theorem sum_created_le (mint : Tx) (others : List Tx) (spent : List (List TxOut))
    (hLength : spent.length = (mint :: others).length)
    (hCovered : ∀ (position : Nat) (tx : Tx) (outputs : List TxOut), position ≠ 0 →
      (mint :: others)[position]? = some tx → spent[position]? = some outputs →
      TxOut.sum tx.outputs ≤ TxOut.sum outputs) :
    ((mint :: others).map fun tx => TxOut.sum tx.outputs).sum ≤
      (spent.map TxOut.sum).sum + TxOut.sum mint.outputs := by
  obtain ⟨first, rest, rfl⟩ := List.exists_cons_of_length_eq_add_one hLength
  -- What the first transaction spends only helps.
  have hRest : List.Forall₂ (· ≤ ·) (others.map fun tx => TxOut.sum tx.outputs)
      (rest.map TxOut.sum) := by
    rw [List.forall₂_iff_get]
    refine ⟨by simpa using hLength.symm, fun position hTx hOutputs => ?_⟩
    simp only [List.get_eq_getElem, List.getElem_map]
    refine hCovered (position + 1) _ _ (Nat.succ_ne_zero _) ?_ ?_
    · exact List.getElem?_eq_getElem (by simpa using hTx)
    · exact List.getElem?_eq_getElem (by simpa using hOutputs)
  have hSums := hRest.sum_le_sum
  simp only [List.map_cons, List.sum_cons]
  omega

section Accepted

variable {rules : Rules} {lookup : OutputLookup} {block : Block}
  {prev adjustment : Option BlockHeader}

/-- What an accepted block spends at a position is what is visible there under the outpoints. -/
theorem forall₂_spentOutputs_of_verify (h : block.verify rules lookup prev adjustment = .ok ())
    {position : Nat} {tx : Tx} {outputs : List TxOut} (hTx : block.txs[position]? = some tx)
    (hOutputs : (spentOutputs lookup block.txs)[position]? = some outputs) :
    List.Forall₂ (fun point output =>
      visibleAt (createdOutputs block.txs) lookup position point = some output)
      tx.spentPoints outputs := by
  obtain ⟨-, -, -, hTxs⟩ := (verify_eq_ok_iff _ _ _ _ _).1 h
  simp only [spentOutputs, List.getElem?_mapIdx, hTx, Option.map_some, Option.some_inj] at hOutputs
  rw [← hOutputs]
  exact forall₂_filterMap fun point => Tx.exists_output_of_verify (hTxs position tx hTx)

/-- What an accepted block creates at a position other than the first is worth no more than what it
spends there. -/
theorem sum_le_sum_spentOutputs_of_verify (h : block.verify rules lookup prev adjustment = .ok ())
    {position : Nat} {tx : Tx} {outputs : List TxOut} (hPosition : position ≠ 0)
    (hTx : block.txs[position]? = some tx)
    (hOutputs : (spentOutputs lookup block.txs)[position]? = some outputs) :
    TxOut.sum tx.outputs ≤ TxOut.sum outputs := by
  obtain ⟨-, hFrame, -, hTxs⟩ := (verify_eq_ok_iff _ _ _ _ _).1 h
  have hMint : tx.isMint = false := by
    rw [← Bool.not_eq_true, hFrame.isMint_iff position tx hTx]
    exact hPosition
  have hSpent := forall₂_spentOutputs_of_verify h hTx hOutputs
  exact Tx.sum_outputs_le_of_verify (hTxs position tx hTx) hMint hSpent

/-- The sentinel stands in an accepted block: its first transaction has a first input, which pushes the
index of the block. -/
theorem exists_sentinel_of_verify (h : block.verify rules lookup prev adjustment = .ok ()) :
    ∃ mint input, block.txs[0]? = some mint ∧ mint.inputs[0]? = some input ∧
      input.isMint = true := by
  obtain ⟨-, hFrame, -, -⟩ := (verify_eq_ok_iff _ _ _ _ _).1 h
  obtain ⟨mint, others, hMint⟩ := List.exists_cons_of_ne_nil hFrame.txs_ne_nil
  have hFirst : block.txs[0]? = some mint := by rw [hMint]; rfl
  have hPushes := hFrame.pushes_index mint (by rw [hMint]; rfl)
  rw [List.head?_eq_getElem?, Option.any_eq_true] at hPushes
  obtain ⟨input, hInput, -⟩ := hPushes
  exact ⟨mint, input, hFirst, hInput, (isMint_input_iff_of_verify h hFirst hInput).2 ⟨rfl, rfl⟩⟩

end Accepted

/-- In an accepted block no outpoint is spent twice, every spent output was created by an earlier
transaction of the block or was known and is not created by the block, the sentinel stands once, and
no value is created beyond what is spent and what the first transaction mints. -/
theorem verify_conserves (rules : Rules) (lookup : OutputLookup) (block : Block)
    (prev adjustment : Option BlockHeader)
    (hCount : ∀ tx ∈ block.txs, tx.outputs.length < 2 ^ 32)
    (h : block.verify rules lookup prev adjustment = .ok ()) :
    ∃ spent, Books lookup block.txs spent := by
  obtain ⟨-, -, hDistinct, -⟩ := (verify_eq_ok_iff _ _ _ _ _).1 h
  have hLength : (spentOutputs lookup block.txs).length = block.txs.length := by
    simp [spentOutputs]
  have hCovered : ∀ (position : Nat) (tx : Tx) (outputs : List TxOut), position ≠ 0 →
      block.txs[position]? = some tx → (spentOutputs lookup block.txs)[position]? = some outputs →
      TxOut.sum tx.outputs ≤ TxOut.sum outputs := by
    intro position tx outputs hPosition hTx hOutputs
    exact sum_le_sum_spentOutputs_of_verify h hPosition hTx hOutputs
  refine ⟨spentOutputs lookup block.txs, hDistinct, exists_sentinel_of_verify h, ?_, hLength, ?_,
    hCovered, ?_⟩
  · intro position index tx input hTx hInput
    exact (isMint_input_iff_of_verify h hTx hInput).1
  · intro position tx outputs hTx hOutputs
    refine (forall₂_spentOutputs_of_verify h hTx hOutputs).imp fun point output hVisible => ?_
    exact (visibleAt_eq_some_iff hCount lookup position point output).1 hVisible
  · intro mint hMint
    obtain ⟨others, hOthers⟩ := List.head?_eq_some_iff.1 hMint
    rw [hOthers] at hCovered hLength ⊢
    exact sum_created_le mint others _ hLength hCovered

end UtxoChain.Block

namespace UtxoChain.Sample

/-! ## A block of two transactions

The second transaction spends what the first mints and an output that was known before. -/

/-- The script that anyone unlocks. -/
def lock : Script := ⟨[.ofOpcode .op1]⟩

/-- The outpoint of the known output. -/
def point : OutPoint := ⟨FixedBytes.ofNat 1, 3⟩

/-- The known outputs. -/
def known : OutputSet := OutputSet.empty.insert point ⟨7, lock⟩

/-- The transaction that mints. -/
def mint : Tx := Tx.mint ⟨[.ofOpcode .op0]⟩ [] [⟨50, lock⟩] 0

/-- The transaction that spends. -/
def spend : Tx :=
  ⟨0, [⟨⟨mint.id, 0⟩, .empty, 0⟩, ⟨point, .empty, 0⟩],
    [⟨40, lock⟩, ⟨16, lock⟩], 0⟩

/-- The block, which starts a chain. -/
def block : Block where
  header := ⟨0, FixedBytes.zero, merkleRootOf [mint, spend], 0, FixedBytes.zero,
    FixedBytes.zero, 0⟩
  txs := [mint, spend]

/-- The rules of the network. -/
def rules : Rules := ⟨.network, .secp256k1⟩

/-- The block is accepted. -/
theorem verify_block :
    block.verify rules known.get? none none = .ok () := by
  decide +kernel

/-- The accepted block of two transactions has books. -/
theorem exists_books :
    (∀ tx ∈ block.txs, tx.outputs.length < 2 ^ 32) ∧
      block.verify rules known.get? none none = .ok () ∧
      ∃ spent, Block.Books known.get? block.txs spent := by
  have hCount : ∀ tx ∈ block.txs, tx.outputs.length < 2 ^ 32 := by
    simp [block, mint, spend, Tx.mint]
  exact ⟨hCount, verify_block,
    Block.verify_conserves rules known.get? block none none hCount verify_block⟩

end UtxoChain.Sample
