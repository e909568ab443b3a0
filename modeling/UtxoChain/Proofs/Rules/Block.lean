import Mathlib.Data.List.Nodup
import UtxoChain.Proofs.Rules.Transaction
import UtxoChain.Rules.Block

/-!
# What an accepted block has passed

`Block.verify_eq_ok_iff` takes an accepted block apart: its header, its frame, the outpoints that its
transactions spend, which are all distinct, and each transaction against the outputs visible to it.
From these follow where the sentinel stands and that no transaction is repeated.
-/

namespace UtxoChain.Block

/-! ## The frame -/

/-- The frame of a block: its first transaction mints and pushes the index of the block, no other
mints, and the header commits to them all. -/
structure WellFramed (block : Block) : Prop where
  /-- There is a transaction. -/
  txs_ne_nil : block.txs ≠ []
  /-- The first transaction mints, and no other does. -/
  isMint_iff : ∀ position tx, block.txs[position]? = some tx → (tx.isMint = true ↔ position = 0)
  /-- The first input of the first transaction pushes the index of the block. -/
  pushes_index : ∀ mint, block.txs.head? = some mint →
    mint.inputs.head?.any (fun input => input.script.startsWithBlockIndex block.header.index) = true
  /-- The header holds the Merkle root of the transactions. -/
  merkleRoot_eq : block.merkleRoot = block.header.merkleRoot

/-- The check of the frame decides `WellFramed`. -/
theorem verifyFrame_eq_ok_iff (block : Block) :
    block.verifyFrame = .ok () ↔ block.WellFramed := by
  unfold verifyFrame
  cases hTxs : block.txs with
  | nil =>
    simp only [reduceCtorEq, false_iff]
    exact fun h => h.txs_ne_nil hTxs
  | cons mint others =>
    constructor
    · intro h
      dsimp only at h
      have hMint : mint.isMint = true := by
        by_contra hMint
        rw [Bool.not_eq_true] at hMint
        simp [hMint] at h
      have hIndex : mint.inputs.head?.any
          (fun input => input.script.startsWithBlockIndex block.header.index) = true := by
        by_contra hIndex
        rw [Bool.not_eq_true] at hIndex
        simp [hMint, hIndex] at h
      rw [hMint, hIndex, if_neg (by simp), if_neg (by simp)] at h
      cases hExtra : others.findIdx? Tx.isMint with
      | some position => simp [hExtra] at h
      | none =>
        have hRoot : block.hasValidMerkleRoot = true := by simpa [hExtra] using h
        have hOthers : ∀ tx ∈ others, tx.isMint = false := by
          simpa [List.findIdx?_eq_none_iff] using hExtra
        refine ⟨by simp [hTxs], fun position tx hTx => ?_, fun first hFirst => ?_, ?_⟩
        · rw [hTxs] at hTx
          cases position with
          | zero =>
            obtain rfl : mint = tx := by simpa using hTx
            simp [hMint]
          | succ position =>
            have hMem : tx ∈ others := List.mem_of_getElem? (by simpa using hTx)
            simp [hOthers tx hMem]
        · obtain rfl : mint = first := by simpa [hTxs] using hFirst
          exact hIndex
        · simpa [hasValidMerkleRoot] using hRoot
    · rintro ⟨-, hMint, hIndex, hRoot⟩
      rw [hTxs] at hMint
      have hFirst : mint.isMint = true := (hMint 0 mint rfl).2 rfl
      have hOthers : others.findIdx? Tx.isMint = none := by
        rw [List.findIdx?_eq_none_iff]
        intro tx hTx
        obtain ⟨position, hPosition⟩ := List.mem_iff_getElem?.1 hTx
        have := hMint (position + 1) tx (by simpa using hPosition)
        simpa using this
      have hPushes := hIndex mint (by rw [hTxs]; rfl)
      simp [hFirst, hPushes, hOthers, hasValidMerkleRoot, hRoot]

/-! ## The transactions -/

/-- The transactions from a position on are accepted exactly when the outpoints that they spend are
distinct and not among those spent before, and each transaction is accepted against the outputs
visible to it. -/
theorem verifyTxs_eq_ok_iff (rules : Rules) (visible : Nat → OutputLookup) (start : Nat)
    (spent : List OutPoint) (txs : List Tx) :
    verifyTxs rules visible start (txs.zip (doubleSpends spent txs)) = .ok () ↔
      (txs.flatMap Tx.spentPoints).Nodup ∧ (∀ point ∈ txs.flatMap Tx.spentPoints, point ∉ spent) ∧
        ∀ (position : Nat) (tx : Tx), txs[position]? = some tx →
          tx.verify rules (visible (start + position)) = .ok () := by
  induction txs generalizing start spent with
  | nil => simp [verifyTxs, doubleSpends]
  | cons tx rest ih =>
    simp only [doubleSpends, List.zip_cons_cons, verifyTxs, List.flatMap_cons, List.nodup_append,
      List.mem_append]
    cases hRepeat : firstRepeat spent tx.spentPoints with
    | some point =>
      -- The transaction repeats an outpoint: both sides fail.
      have hNotNone : ¬ firstRepeat spent tx.spentPoints = none := by simp [hRepeat]
      rw [firstRepeat_eq_none_iff] at hNotNone
      simp only [andThen_eq_ok_iff, reduceCtorEq, false_and, false_iff]
      rintro ⟨⟨hNodup, -⟩, hSpent, -⟩
      exact hNotNone ⟨hNodup, fun point hPoint => hSpent point (.inl hPoint)⟩
    | none =>
      -- The outpoints of the transaction join those spent before, and positions move on by one.
      obtain ⟨hNodup, hSpent⟩ := (firstRepeat_eq_none_iff _ _).1 hRepeat
      simp only [andThen_eq_ok_iff, mapError_eq_ok_iff, ih, List.mem_append, List.mem_reverse]
      constructor
      · rintro ⟨hTx, hRestNodup, hRestSpent, hRest⟩
        refine ⟨⟨hNodup, hRestNodup, ?_⟩, ?_, ?_⟩
        · rintro point hPoint _ hOther rfl
          exact hRestSpent point hOther (.inl hPoint)
        · rintro point (hPoint | hPoint)
          · exact hSpent point hPoint
          · exact fun hMem => hRestSpent point hPoint (.inr hMem)
        · intro position other hOther
          cases position with
          | zero =>
            obtain rfl : tx = other := by simpa using hOther
            exact hTx
          | succ position =>
            rw [← Nat.add_assoc, Nat.add_right_comm]
            exact hRest position other (by simpa using hOther)
      · rintro ⟨⟨-, hRestNodup, hDisjoint⟩, hAllSpent, hAll⟩
        refine ⟨hAll 0 tx rfl, hRestNodup, ?_, ?_⟩
        · rintro point hPoint (hMem | hMem)
          · exact hDisjoint point hMem point hPoint rfl
          · exact hAllSpent point (.inr hPoint) hMem
        · intro position other hOther
          rw [Nat.add_right_comm, Nat.add_assoc]
          exact hAll (position + 1) other (by simpa using hOther)

/-- A block is accepted exactly when its header and its frame are, the outpoints that it spends are
distinct, and each transaction is accepted against the outputs visible to it. -/
theorem verify_eq_ok_iff (rules : Rules) (lookup : OutputLookup) (block : Block)
    (prev adjustment : Option BlockHeader) :
    block.verify rules lookup prev adjustment = .ok () ↔
      block.header.verify rules.params prev adjustment = .ok () ∧ block.WellFramed ∧
        (block.txs.flatMap Tx.spentPoints).Nodup ∧
        ∀ (position : Nat) (tx : Tx), block.txs[position]? = some tx →
          tx.verify rules (visibleAt (createdOutputs block.txs) lookup position) = .ok () := by
  unfold verify
  rw [andThen_eq_ok_iff, andThen_eq_ok_iff, mapError_eq_ok_iff, mapError_eq_ok_iff,
    verifyFrame_eq_ok_iff, verifyTxs_eq_ok_iff]
  simp

/-! ## What acceptance implies -/

/-- The transactions of a well-framed block are distinct if the outpoints that they spend are and each
of them is accepted: all but the first spend something. -/
theorem WellFramed.nodup_txs {rules : Rules} {block : Block} {visible : Nat → OutputLookup}
    (h : block.WellFramed) (hDistinct : (block.txs.flatMap Tx.spentPoints).Nodup)
    (hTxs : ∀ (position : Nat) (tx : Tx), block.txs[position]? = some tx →
      tx.verify rules (visible position) = .ok ()) : block.txs.Nodup := by
  obtain ⟨-, hDisjoint⟩ := List.nodup_flatMap.1 hDistinct
  rw [List.pairwise_iff_getElem] at hDisjoint
  unfold List.Nodup
  rw [List.pairwise_iff_getElem]
  intro one other hOne hOther hLess hSame
  -- The later of two equal transactions does not mint, so it would spend an outpoint again.
  have hTx := List.getElem?_eq_getElem hOther
  have hMint : block.txs[other].isMint = false := by
    rw [← Bool.not_eq_true, h.isMint_iff other _ hTx]
    exact Nat.ne_of_gt (Nat.zero_lt_of_lt hLess)
  obtain ⟨point, hPoint⟩ := List.exists_mem_of_ne_nil _
    (Tx.spentPoints_ne_nil_of_verify (hTxs other _ hTx) hMint)
  have hApart : block.txs[one].spentPoints.Disjoint block.txs[other].spentPoints :=
    hDisjoint one other hOne hOther hLess
  rw [hSame] at hApart
  exact hApart hPoint hPoint

section Accepted

variable {rules : Rules} {lookup : OutputLookup} {block : Block}
  {prev adjustment : Option BlockHeader}

/-- The only sentinel of an accepted block is the first input of its first transaction. -/
theorem isMint_input_iff_of_verify (h : block.verify rules lookup prev adjustment = .ok ())
    {position index : Nat} {tx : Tx} {input : TxIn} (hTx : block.txs[position]? = some tx)
    (hInput : tx.inputs[index]? = some input) :
    input.isMint = true ↔ position = 0 ∧ index = 0 := by
  obtain ⟨-, hFrame, -, hTxs⟩ := (verify_eq_ok_iff _ _ _ _ _).1 h
  have hPosition := hFrame.isMint_iff position tx hTx
  cases hMint : tx.isMint with
  | true => rw [Tx.isMint_iff_of_isMint hMint hInput, ← hPosition, hMint, eq_self, true_and]
  | false =>
    have hFalse := Tx.isMint_eq_false_of_verify (hTxs position tx hTx) hMint
      (List.mem_of_getElem? hInput)
    have hNotFirst : position ≠ 0 := fun h0 => by simpa [hMint] using hPosition.2 h0
    simp [hFalse, hNotFirst]

/-- The transactions of an accepted block are distinct. -/
theorem nodup_txs_of_verify (h : block.verify rules lookup prev adjustment = .ok ()) :
    block.txs.Nodup := by
  obtain ⟨-, hFrame, hDistinct, hTxs⟩ := (verify_eq_ok_iff _ _ _ _ _).1 h
  exact hFrame.nodup_txs hDistinct hTxs

end Accepted

end UtxoChain.Block
