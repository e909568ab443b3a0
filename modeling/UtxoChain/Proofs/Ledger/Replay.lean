import UtxoChain.Proofs.Ledger.Conservation
import UtxoChain.Proofs.Ledger.Settle
import UtxoChain.Proofs.Tx.Reading

/-!
# Replaying a block

A ledger replays a block by checking each transaction against the outputs that are left when its turn
comes, and then settling it. A block check never does this: it looks outputs up in a list of all that
the block creates, and tests separately that none is spent twice. `Block.verify_iff_replay` says that
the two accept the same transactions.

The link between them is what is listed for a transaction: the outputs of those before it and the
known ones, spent or not. `Settled` says that the set of the ledger holds what is listed and not
spent; every accepted transaction keeps it so. Where transactions have ids of their own, what is
listed is also what the block check finds.
-/

namespace UtxoChain

/-- The set that is left when the transactions from a position on are accepted in turn, each against
the outputs that those before it have left. -/
def replay (rules : Rules) : Nat → OutputSet → List Tx → Except Rejection OutputSet
  | _, set, [] => .ok set
  | position, set, tx :: rest => do
    (tx.verify rules set.get?).mapError (.tx position)
    replay rules (position + 1) (set.settle tx) rest

/-- The output that one of some transactions creates under an outpoint. -/
def produced (txs : List Tx) : OutputLookup := fun point =>
  txs.findSome? fun tx => tx.output? point

/-- The output that one of some transactions creates under an outpoint, or the known one, whether it
is spent or not. -/
def listed (base : OutputLookup) (txs : List Tx) : OutputLookup := fun point =>
  (produced txs point).or (base point)

/-- Only a transaction whose id stands in the outpoint produces something. -/
theorem produced_eq_none {txs : List Tx} {point : OutPoint}
    (h : ∀ tx ∈ txs, tx.id ≠ point.txId) : produced txs point = none := by
  unfold produced
  rw [List.findSome?_eq_none_iff]
  intro tx hTx
  rw [Option.eq_none_iff_forall_ne_some]
  intro output hOutput
  exact h tx hTx (Tx.txId_of_output? hOutput).symm

/-- What one more transaction creates is listed after everything before it. -/
theorem listed_concat (base : OutputLookup) (txs : List Tx) (tx : Tx) (point : OutPoint) :
    listed base (txs ++ [tx]) point =
      ((produced txs point).or (tx.output? point)).or (base point) := by
  unfold listed produced
  rw [List.findSome?_append]
  simp

/-- Transactions that a ledger can tell apart: only the first mints, no two have one id, and no known
output stands under an id of theirs. -/
structure Separated (base : OutputLookup) (txs : List Tx) : Prop where
  /-- The first transaction mints, and no other does. -/
  isMint_iff : ∀ position tx, txs[position]? = some tx → (tx.isMint = true ↔ position = 0)
  /-- A transaction is known by its id. -/
  eq_of_id_eq : ∀ one ∈ txs, ∀ other ∈ txs, one.id = other.id → one = other
  /-- The id of a transaction is new. -/
  fresh : ∀ tx ∈ txs, ∀ point, point.txId = tx.id → base point = none
  /-- An index of 32 bits names every output. -/
  count : ∀ tx ∈ txs, tx.outputs.length < 2 ^ 32

/-- The set holds what the accepted transactions have left: nothing under the outpoints that they
spend, and otherwise what is listed. Everything that they spend was listed. -/
structure Settled (base : OutputLookup) (done : List Tx) (set : OutputSet) : Prop where
  /-- What was spent is gone. -/
  spent : ∀ point ∈ done.flatMap Tx.spentPoints, set.get? point = none
  /-- What was not spent is there. -/
  unspent : ∀ point, point ∉ done.flatMap Tx.spentPoints → set.get? point = listed base done point
  /-- What was spent had been created or known. -/
  sourced : ∀ point ∈ done.flatMap Tx.spentPoints, listed base done point ≠ none

namespace Settled

variable {rules : Rules} {base : OutputLookup} {done : List Tx} {set : OutputSet} {tx : Tx}

/-- Before the first transaction the set holds what is known. -/
theorem nil (set : OutputSet) : Settled set.get? [] set :=
  ⟨by simp, by simp [listed, produced], by simp⟩

/-- A transaction is accepted against the set exactly when it spends nothing that was spent before and
is accepted against what is listed. -/
theorem verify_iff (h : Settled base done set) :
    tx.verify rules set.get? = .ok () ↔
      (∀ point ∈ tx.spentPoints, point ∉ done.flatMap Tx.spentPoints) ∧
        tx.verify rules (listed base done) = .ok () := by
  have hCongr : (∀ point ∈ tx.spentPoints, point ∉ done.flatMap Tx.spentPoints) →
      tx.verify rules set.get? = tx.verify rules (listed base done) := by
    intro hUnspent
    exact Tx.verify_congr rules fun point hPoint => h.unspent point (hUnspent point hPoint)
  constructor
  · intro hVerify
    have hUnspent : ∀ point ∈ tx.spentPoints, point ∉ done.flatMap Tx.spentPoints := by
      intro point hPoint hSpent
      obtain ⟨output, hOutput⟩ := Tx.exists_output_of_verify hVerify hPoint
      rw [h.spent point hSpent] at hOutput
      exact absurd hOutput (by simp)
    exact ⟨hUnspent, hCongr hUnspent ▸ hVerify⟩
  · rintro ⟨hUnspent, hVerify⟩
    rw [hCongr hUnspent]
    exact hVerify

/-- Settling an accepted transaction whose id is new leaves what the transactions up to it have
left. -/
theorem settle (h : Settled base done set) (hVerify : tx.verify rules set.get? = .ok ())
    (hCount : tx.outputs.length < 2 ^ 32) (hId : ∀ other ∈ done, other.id ≠ tx.id)
    (hFresh : ∀ point, point.txId = tx.id → base point = none) :
    Settled base (done ++ [tx]) (set.settle tx) := by
  obtain ⟨hUnspent, hListed⟩ := h.verify_iff.1 hVerify
  -- Nothing that was listed before stands under the new id.
  have hNew : ∀ point output, tx.output? point = some output →
      produced done point = none ∧ base point = none := by
    intro point output hOutput
    have hTxId := Tx.txId_of_output? hOutput
    refine ⟨produced_eq_none ?_, hFresh point hTxId⟩
    rw [hTxId]
    exact hId
  have hSourced : ∀ point ∈ (done ++ [tx]).flatMap Tx.spentPoints, listed base done point ≠ none := by
    intro point hPoint
    rw [List.flatMap_append, List.mem_append] at hPoint
    rcases hPoint with hBefore | hNow
    · exact h.sourced point hBefore
    · obtain ⟨output, hOutput⟩ := Tx.exists_output_of_verify hListed (by simpa using hNow)
      simp [hOutput]
  -- Whatever is spent was listed before, so the transaction creates nothing that is spent already.
  have hOutput : ∀ point ∈ (done ++ [tx]).flatMap Tx.spentPoints, tx.output? point = none := by
    intro point hPoint
    rw [Option.eq_none_iff_forall_ne_some]
    intro output hOutput
    obtain ⟨hProduced, hBase⟩ := hNew point output hOutput
    exact hSourced point hPoint (by rw [listed, hProduced, hBase, Option.or_none])
  refine ⟨fun point hPoint => ?_, fun point hPoint => ?_, fun point hPoint => ?_⟩
  · rw [OutputSet.get?_settle set hCount, hOutput point hPoint, Option.none_or]
    split_ifs with hNow
    · rfl
    · refine h.spent point ?_
      simpa [hNow] using hPoint
  · have hBefore : point ∉ done.flatMap Tx.spentPoints := fun hMem => hPoint (by simp [hMem])
    have hNow : point ∉ tx.spentPoints := fun hMem => hPoint (by simp [hMem])
    rw [OutputSet.get?_settle set hCount, if_neg hNow, h.unspent point hBefore, listed_concat, listed]
    cases hCreated : tx.output? point with
    | none => simp
    | some output => simp [(hNew point output hCreated).1]
  · have hBefore := hSourced point hPoint
    rw [listed_concat, hOutput point hPoint, Option.or_none]
    exact hBefore

end Settled

namespace Separated

variable {rules : Rules} {base lookup : OutputLookup} {txs done rest : List Tx} {tx : Tx}

/-- A transaction that spends nothing that was spent before has a new id: the same one again would
spend its outpoints again. -/
theorem id_ne (h : Separated base (done ++ tx :: rest))
    (hUnspent : ∀ point ∈ tx.spentPoints, point ∉ done.flatMap Tx.spentPoints)
    (hVerify : tx.verify rules lookup = .ok ()) : ∀ other ∈ done, other.id ≠ tx.id := by
  intro other hOther hId
  obtain rfl : other = tx := h.eq_of_id_eq other (by simp [hOther]) tx (by simp) hId
  have hMint : other.isMint = false := by
    rw [← Bool.not_eq_true, h.isMint_iff done.length other (by simp)]
    exact fun hNil => by simp [List.eq_nil_of_length_eq_zero hNil] at hOther
  obtain ⟨point, hPoint⟩ := List.exists_mem_of_ne_nil _ (Tx.spentPoints_ne_nil_of_verify hVerify hMint)
  exact hUnspent point hPoint (List.mem_flatMap.2 ⟨other, hOther, hPoint⟩)

/-- A settled ledger accepts the remaining transactions exactly when they spend distinct outpoints that
were not spent before, and each is accepted against what is listed for it. -/
theorem replay_iff (h : Separated base (done ++ rest)) {set : OutputSet} (hSet : Settled base done set)
    (start : Nat) :
    (∃ final, replay rules start set rest = .ok final) ↔
      (rest.flatMap Tx.spentPoints).Nodup ∧
        (∀ point ∈ rest.flatMap Tx.spentPoints, point ∉ done.flatMap Tx.spentPoints) ∧
          ∀ (position : Nat) (tx : Tx), rest[position]? = some tx →
            tx.verify rules (listed base (done ++ rest.take position)) = .ok () := by
  -- The induction is over what remains; `Settled` is what each accepted transaction keeps.
  induction rest generalizing done set start with
  | nil => simp [replay]
  | cons tx rest ih =>
    have hSplit : done ++ tx :: rest = (done ++ [tx]) ++ rest := by simp
    have hCount : tx.outputs.length < 2 ^ 32 := h.count tx (by simp)
    have hFresh : ∀ point, point.txId = tx.id → base point = none := h.fresh tx (by simp)
    have hNext : tx.verify rules set.get? = .ok () → Settled base (done ++ [tx]) (set.settle tx) := by
      intro hVerify
      obtain ⟨hUnspent, hListed⟩ := hSet.verify_iff.1 hVerify
      exact hSet.settle hVerify hCount (h.id_ne hUnspent hListed) hFresh
    have hRest : Separated base ((done ++ [tx]) ++ rest) := hSplit ▸ h
    simp only [replay, andThen_eq_ok_iff, mapError_eq_ok_iff, exists_and_left, List.flatMap_cons,
      List.nodup_append, List.mem_append]
    constructor
    · rintro ⟨hVerify, hFinal⟩
      obtain ⟨hUnspent, hListed⟩ := hSet.verify_iff.1 hVerify
      obtain ⟨hNodup, hApart, hAll⟩ := (ih hRest (hNext hVerify) _).1 hFinal
      refine ⟨⟨Tx.nodup_spentPoints_of_verify hVerify, hNodup, ?_⟩, ?_, ?_⟩
      · rintro point hNow _ hLater rfl
        exact hApart point hLater (by simp [hNow])
      · rintro point (hNow | hLater)
        · exact hUnspent point hNow
        · exact fun hBefore => hApart point hLater (by simp [hBefore])
      · intro position other hOther
        cases position with
        | zero =>
          obtain rfl : tx = other := by simpa using hOther
          simpa using hListed
        | succ position => simpa using hAll position other (by simpa using hOther)
    · rintro ⟨⟨-, hNodup, hDisjoint⟩, hApart, hAll⟩
      have hListed : tx.verify rules (listed base done) = .ok () := by simpa using hAll 0 tx rfl
      have hVerify := hSet.verify_iff.2 ⟨fun point hNow => hApart point (.inl hNow), hListed⟩
      refine ⟨hVerify, (ih hRest (hNext hVerify) _).2 ⟨hNodup, ?_, ?_⟩⟩
      · intro point hLater hSpent
        rw [List.flatMap_append, List.mem_append] at hSpent
        rcases hSpent with hBefore | hNow
        · exact hApart point (.inr hLater) hBefore
        · exact hDisjoint point (by simpa using hNow) point hLater rfl
      · intro position other hOther
        simpa using hAll (position + 1) other (by simpa using hOther)

/-- An outpoint is created at one position only. -/
theorem creator_unique (h : Separated base txs) (hNodup : txs.Nodup) {point : OutPoint}
    {one other : Nat} {left right : TxOut} (hOne : Block.Creates txs one point left)
    (hOther : Block.Creates txs other point right) : one = other ∧ left = right := by
  obtain ⟨tx, hTx, hLeft⟩ := hOne
  obtain ⟨tx', hTx', hRight⟩ := hOther
  obtain rfl : tx = tx' := by
    refine h.eq_of_id_eq tx (List.mem_of_getElem? hTx) tx' (List.mem_of_getElem? hTx') ?_
    rw [← Tx.txId_of_output? hLeft, Tx.txId_of_output? hRight]
  obtain ⟨hLess, hGet⟩ := List.getElem?_eq_some_iff.1 hTx
  refine ⟨(List.getElem?_inj hLess hNodup).1 (hTx.trans hTx'.symm), ?_⟩
  exact Option.some_inj.1 (hLeft.symm.trans hRight)

/-- What the transactions before a position produce is created at an earlier position. -/
theorem produced_take_eq_some_iff (h : Separated base txs) (hNodup : txs.Nodup) (position : Nat)
    (point : OutPoint) (output : TxOut) :
    produced (txs.take position) point = some output ↔
      ∃ creator, creator < position ∧ Block.Creates txs creator point output := by
  have hSome : ∀ found, produced (txs.take position) point = some found →
      ∃ creator, creator < position ∧ Block.Creates txs creator point found := by
    intro found hFound
    obtain ⟨tx, hTx, hOutput⟩ := List.exists_of_findSome?_eq_some hFound
    obtain ⟨creator, hCreator⟩ := List.mem_iff_getElem?.1 hTx
    rw [List.getElem?_take] at hCreator
    split_ifs at hCreator with hLess
    exact ⟨creator, hLess, tx, hCreator, hOutput⟩
  constructor
  · exact hSome output
  · rintro ⟨creator, hLess, hCreates⟩
    cases hProduced : produced (txs.take position) point with
    | some found =>
      obtain ⟨other, -, hOther⟩ := hSome found hProduced
      rw [(h.creator_unique hNodup hOther hCreates).2]
    | none =>
      obtain ⟨tx, hTx, hOutput⟩ := hCreates
      have hMem : tx ∈ txs.take position := by
        refine List.mem_of_getElem? (i := creator) ?_
        rw [List.getElem?_take, if_pos hLess, hTx]
      rw [List.findSome?_eq_none_iff.1 hProduced tx hMem] at hOutput
      exact absurd hOutput (by simp)

/-- What the block check finds for a transaction is what is listed for it. -/
theorem visibleAt_eq_listed (h : Separated base txs) (hNodup : txs.Nodup) (position : Nat)
    (point : OutPoint) :
    Block.visibleAt (Block.createdOutputs txs) base position point =
      listed base (txs.take position) point := by
  apply Option.ext
  intro output
  rw [Block.visibleAt_eq_some_iff h.count, listed, Option.or_eq_some_iff,
    h.produced_take_eq_some_iff hNodup]
  constructor
  · rintro (⟨creator, hEarlier, hCreates, -⟩ | ⟨hUncreated, hKnown⟩)
    · exact .inl ⟨creator, hEarlier, hCreates⟩
    · refine .inr ⟨?_, hKnown⟩
      rw [Option.eq_none_iff_forall_ne_some]
      intro found hFound
      obtain ⟨creator, -, hCreates⟩ := (h.produced_take_eq_some_iff hNodup _ _ _).1 hFound
      exact hUncreated creator found hCreates
  · rintro (⟨creator, hEarlier, hCreates⟩ | ⟨-, hKnown⟩)
    · refine .created creator hEarlier hCreates fun later hLater other hOther => ?_
      exact Nat.ne_of_lt hLater (h.creator_unique hNodup hCreates hOther).1
    · refine .known (fun creator other hCreates => ?_) hKnown
      obtain ⟨tx, hTx, hOutput⟩ := hCreates
      have hNone := h.fresh tx (List.mem_of_getElem? hTx) point (Tx.txId_of_output? hOutput)
      rw [hKnown] at hNone
      exact absurd hNone (by simp)

end Separated

/-- A block whose header and frame are right is accepted exactly when a ledger accepts its transactions
one after the other, if transactions with different bytes have different ids and no known output stands
under one of these. -/
theorem Block.verify_iff_replay (rules : Rules) (set : OutputSet) (block : Block)
    (prev adjustment : Option BlockHeader)
    (hHeader : block.header.verify rules.params prev adjustment = .ok ())
    (hFrame : block.verifyFrame = .ok ())
    (hWellFormed : ∀ tx ∈ block.txs, tx.WellFormed)
    (hCount : ∀ tx ∈ block.txs, tx.outputs.length < 2 ^ 32)
    (hIds : ∀ one ∈ block.txs, ∀ other ∈ block.txs, one.encode ≠ other.encode → one.id ≠ other.id)
    (hFresh : ∀ tx ∈ block.txs, ∀ point, point.txId = tx.id → set.get? point = none) :
    block.verify rules set.get? prev adjustment = .ok () ↔
      ∃ final, replay rules 0 set block.txs = .ok final := by
  have hFramed := (verifyFrame_eq_ok_iff block).1 hFrame
  have hSeparated : Separated set.get? ([] ++ block.txs) := by
    refine ⟨hFramed.isMint_iff, fun one hOne other hOther hId => ?_, hFresh, hCount⟩
    -- Well-formed transactions that differ have different bytes.
    by_contra hNe
    refine hIds one hOne other hOther (fun hBytes => hNe ?_) hId
    exact Tx.inverts_decoder.eq_of_encode_eq (hWellFormed one hOne) (hWellFormed other hOther) hBytes
  rw [hSeparated.replay_iff (Settled.nil set), verify_eq_ok_iff]
  simp only [List.flatMap_nil, List.not_mem_nil, not_false_eq_true, implies_true, true_and,
    List.nil_append] at hSeparated ⊢
  -- Both sides give distinct transactions, and then both look the same outputs up.
  have hVisible : block.txs.Nodup → ∀ position,
      visibleAt (createdOutputs block.txs) set.get? position =
        listed set.get? (block.txs.take position) := by
    intro hNodup position
    exact funext (hSeparated.visibleAt_eq_listed hNodup position)
  constructor
  · rintro ⟨-, -, hDistinct, hTxs⟩
    have hNodup := hFramed.nodup_txs hDistinct hTxs
    simp only [hVisible hNodup] at hTxs
    exact ⟨hDistinct, hTxs⟩
  · rintro ⟨hDistinct, hTxs⟩
    have hNodup := hFramed.nodup_txs hDistinct hTxs
    refine ⟨hHeader, hFramed, hDistinct, ?_⟩
    simp only [hVisible hNodup]
    exact hTxs

namespace Sample

/-- No output is known under the ids of some transactions, if none is the id that the known output
stands under. -/
theorem get?_known_of_forall_ne {txs : List Tx} (h : ∀ tx ∈ txs, Sample.point.txId ≠ tx.id) :
    ∀ tx ∈ txs, ∀ point, point.txId = tx.id → known.get? point = none := by
  intro tx hTx point hId
  unfold known
  rw [OutputSet.get?_insert, if_neg]
  · rfl
  · rintro rfl
    exact h tx hTx hId

/-- No output is known under the id of a transaction of the block. -/
theorem get?_known_eq_none :
    ∀ tx ∈ block.txs, ∀ point, point.txId = tx.id → known.get? point = none :=
  get?_known_of_forall_ne (by decide +kernel)

/-- A ledger accepts the block of two transactions. -/
theorem exists_final :
    block.header.verify rules.params none none = .ok () ∧ block.verifyFrame = .ok () ∧
      (∀ tx ∈ block.txs, tx.WellFormed) ∧ (∀ tx ∈ block.txs, tx.outputs.length < 2 ^ 32) ∧
      (∀ one ∈ block.txs, ∀ other ∈ block.txs, one.encode ≠ other.encode → one.id ≠ other.id) ∧
      ∃ final, replay rules 0 known block.txs = .ok final := by
  have hHeader : block.header.verify rules.params none none = .ok () := by decide +kernel
  have hFrame : block.verifyFrame = .ok () := by decide +kernel
  have hWellFormed : ∀ tx ∈ block.txs, tx.WellFormed := by decide +kernel
  have hCount : ∀ tx ∈ block.txs, tx.outputs.length < 2 ^ 32 := by decide
  have hIds : ∀ one ∈ block.txs, ∀ other ∈ block.txs, one.encode ≠ other.encode →
      one.id ≠ other.id := by
    decide +kernel
  exact ⟨hHeader, hFrame, hWellFormed, hCount, hIds,
    (Block.verify_iff_replay rules known block none none hHeader hFrame hWellFormed hCount hIds
      get?_known_eq_none).1 verify_block⟩

end Sample

end UtxoChain
