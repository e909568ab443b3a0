import UtxoChain.Proofs.Ledger.Replay

/-!
# The fault that a block check reports

A block check that rejects a transaction has accepted all before it, and so has a ledger that replays
the block: every output that the check has found for them was found among what the earlier
transactions had left. `Kept` is the invariant of the replay, and it needs nothing of the ids.

The ledger need not reject the same transaction. The check looks an outpoint up in one list of all
that the block creates, where the last creator counts. If a transaction is repeated, its outputs are
hidden from those between the two copies, although the ledger has them. The check then reports a
spender that the ledger accepts, and the ledger goes on to reject a later transaction
(`Sample.replay_respent`). Where no creator of a spent output is repeated, the two reject the same
transaction (`Block.replay_of_verify_error`).
-/

namespace UtxoChain

namespace Block

variable {base : OutputLookup} {done rest : List Tx} {tx : Tx} {point : OutPoint}

/-- The creator that is found for an outpoint is a transaction of the block. -/
theorem lt_length_of_lookup_createdOutputs {txs : List Tx} {creator : Nat} {output : TxOut}
    (h : (createdOutputs txs).lookup point = some (creator, output)) : creator < txs.length := by
  induction txs using List.reverseRecOn with
  | nil => simp [createdOutputs] at h
  | append_singleton txs tx ih =>
    rw [lookup_createdOutputs_concat] at h
    rw [List.length_append, List.length_singleton]
    cases hOutput : tx.lastOutput? point with
    | none =>
      rw [hOutput, Option.map_none, Option.none_or] at h
      have hEarlier := ih h
      omega
    | some created =>
      rw [hOutput, Option.map_some, Option.some_or, Option.some_inj] at h
      have hLast : txs.length = creator := (Prod.mk.inj h).1
      omega

/-- The outputs of one more transaction are visible after it, before all others. -/
theorem visibleAt_concat (base : OutputLookup) (done : List Tx) (tx : Tx) (point : OutPoint) :
    visibleAt (createdOutputs (done ++ [tx])) base (done ++ [tx]).length point =
      (tx.lastOutput? point).or (visibleAt (createdOutputs done) base done.length point) := by
  have hLength : (done ++ [tx]).length = done.length + 1 := by simp
  unfold visibleAt
  rw [lookup_createdOutputs_concat, hLength]
  cases tx.lastOutput? point with
  | some output => simp
  | none =>
    rw [Option.map_none, Option.none_or, Option.none_or]
    cases hFound : (createdOutputs done).lookup point with
    | none => rfl
    | some found =>
      have hEarlier : found.1 < done.length := lt_length_of_lookup_createdOutputs hFound
      dsimp only
      rw [if_pos hEarlier, if_pos (by omega)]

/-- Transactions that do not create an outpoint do not change what is found under it. -/
theorem lookup_createdOutputs_append (h : ∀ tx ∈ rest, tx.lastOutput? point = none) :
    (createdOutputs (done ++ rest)).lookup point = (createdOutputs done).lookup point := by
  induction rest using List.reverseRecOn with
  | nil => rw [List.append_nil]
  | append_singleton rest tx ih =>
    have hLast : tx.lastOutput? point = none := h tx (by simp)
    rw [← List.append_assoc, lookup_createdOutputs_concat, hLast, Option.map_none, Option.none_or]
    exact ih fun other hOther => h other (by simp [hOther])

/-- Under an outpoint that a later transaction creates nothing is visible, whatever was there. -/
theorem visibleAt_append_eq_none (hTx : tx ∈ rest) (hOutput : tx.lastOutput? point ≠ none) :
    visibleAt (createdOutputs (done ++ rest)) base done.length point = none := by
  have hFound : ∃ creator output, done.length ≤ creator ∧
      (createdOutputs (done ++ rest)).lookup point = some (creator, output) := by
    induction rest using List.reverseRecOn with
    | nil => exact absurd hTx List.not_mem_nil
    | append_singleton rest last ih =>
      rw [← List.append_assoc, lookup_createdOutputs_concat]
      cases hLast : last.lastOutput? point with
      | some output =>
        refine ⟨(done ++ rest).length, output, ?_, rfl⟩
        rw [List.length_append]
        exact Nat.le_add_right _ _
      | none =>
        -- The creator is not the last transaction, so it is found among the others.
        have hMem : tx ∈ rest := by
          rcases List.mem_append.1 hTx with hMem | hMem
          · exact hMem
          · rw [List.mem_singleton.1 hMem] at hOutput
            exact absurd hLast hOutput
        exact ih hMem
  obtain ⟨creator, output, hLate, hLookup⟩ := hFound
  unfold visibleAt
  rw [hLookup]
  dsimp only
  rw [if_neg (Nat.not_lt.2 hLate)]

/-- Under an outpoint that no later transaction creates, the earlier ones alone decide what is
visible. -/
theorem visibleAt_append_eq (h : ∀ tx ∈ rest, tx.lastOutput? point = none) :
    visibleAt (createdOutputs (done ++ rest)) base done.length point =
      visibleAt (createdOutputs done) base done.length point := by
  unfold visibleAt
  rw [lookup_createdOutputs_append h]

/-- What is visible was created by no later transaction, and the earlier ones alone show it. -/
theorem visibleAt_append_eq_some_iff {output : TxOut} :
    visibleAt (createdOutputs (done ++ rest)) base done.length point = some output ↔
      (∀ tx ∈ rest, tx.lastOutput? point = none) ∧
        visibleAt (createdOutputs done) base done.length point = some output := by
  by_cases hLater : ∀ tx ∈ rest, tx.lastOutput? point = none
  · rw [visibleAt_append_eq hLater]
    exact (and_iff_right hLater).symm
  · simp only [hLater, false_and, iff_false]
    push Not at hLater
    obtain ⟨tx, hTx, hOutput⟩ := hLater
    rw [visibleAt_append_eq_none hTx hOutput]
    simp

/-- Under an outpoint that no earlier transaction creates the known output is visible. -/
theorem visibleAt_eq_base (h : ∀ tx ∈ done, tx.lastOutput? point = none) (position : Nat) :
    visibleAt (createdOutputs done) base position point = base point := by
  have hNone : (createdOutputs ([] ++ done)).lookup point = none := lookup_createdOutputs_append h
  rw [List.nil_append] at hNone
  unfold visibleAt
  rw [hNone]

end Block

open Block

/-- The set that a ledger keeps while a block check goes on: what the accepted transactions spend is
gone and will not be created again, and otherwise the set holds what they make visible. -/
structure Kept (base : OutputLookup) (done rest : List Tx) (set : OutputSet) : Prop where
  /-- What was spent is gone, and no transaction that is left creates it. -/
  spent : ∀ point ∈ done.flatMap Tx.spentPoints,
    set.get? point = none ∧ ∀ tx ∈ rest, tx.lastOutput? point = none
  /-- What was not spent is there if the accepted transactions create it or it is known. -/
  unspent : ∀ point, point ∉ done.flatMap Tx.spentPoints →
    set.get? point = visibleAt (createdOutputs done) base done.length point

namespace Kept

variable {rules : Rules} {base : OutputLookup} {done rest : List Tx} {set : OutputSet} {tx : Tx}

/-- Before the first transaction the set holds what is known. -/
theorem nil (set : OutputSet) (rest : List Tx) : Kept set.get? [] rest set :=
  ⟨by simp, by simp [visibleAt, createdOutputs]⟩

/-- A transaction that the block check accepts is accepted against the set, and settling it keeps the
set. -/
theorem settle (h : Kept base done (tx :: rest) set)
    (hUnspent : ∀ point ∈ tx.spentPoints, point ∉ done.flatMap Tx.spentPoints)
    (hVerify : tx.verify rules
      (visibleAt (createdOutputs (done ++ tx :: rest)) base done.length) = .ok ()) :
    tx.verify rules set.get? = .ok () ∧ Kept base (done ++ [tx]) rest (set.settle tx) := by
  -- Each outpoint that is spent is visible, so nothing from here on creates it.
  have hSpent : ∀ point ∈ tx.spentPoints,
      visibleAt (createdOutputs (done ++ tx :: rest)) base done.length point = set.get? point ∧
        ∀ other ∈ tx :: rest, other.lastOutput? point = none := by
    intro point hPoint
    obtain ⟨output, hOutput⟩ := Tx.exists_output_of_verify hVerify hPoint
    obtain ⟨hLater, hVisible⟩ := visibleAt_append_eq_some_iff.1 hOutput
    rw [hOutput, h.unspent point (hUnspent point hPoint), hVisible]
    exact ⟨rfl, hLater⟩
  have hAccepted : tx.verify rules set.get? = .ok () := by
    rw [← Tx.verify_congr rules fun point hPoint => (hSpent point hPoint).1]
    exact hVerify
  refine ⟨hAccepted, ?_, ?_⟩
  · intro point hPoint
    rw [OutputSet.get?_settle_last]
    rw [List.flatMap_append, List.mem_append, List.flatMap_singleton] at hPoint
    rcases hPoint with hBefore | hNow
    · obtain ⟨hGone, hLater⟩ := h.spent point hBefore
      rw [hLater tx List.mem_cons_self, hGone, Option.none_or, ite_self]
      exact ⟨rfl, fun other hOther => hLater other (List.mem_cons_of_mem _ hOther)⟩
    · obtain ⟨-, hLater⟩ := hSpent point hNow
      rw [hLater tx List.mem_cons_self, if_pos hNow, Option.none_or]
      exact ⟨rfl, fun other hOther => hLater other (List.mem_cons_of_mem _ hOther)⟩
  · intro point hPoint
    rw [List.flatMap_append, List.mem_append, List.flatMap_singleton, not_or] at hPoint
    obtain ⟨hBefore, hNow⟩ := hPoint
    rw [OutputSet.get?_settle_last, if_neg hNow, visibleAt_concat, h.unspent point hBefore]

end Kept

/-- Replaying some transactions and then others is replaying them in a row. -/
theorem replay_append (rules : Rules) (start : Nat) (set : OutputSet) (before after : List Tx) :
    replay rules start set (before ++ after) =
      replay rules start set before >>= fun left =>
        replay rules (start + before.length) left after := by
  induction before generalizing start set with
  | nil => rfl
  | cons tx before ih =>
    rw [List.cons_append, replay, replay, bind_assoc]
    congr 1
    funext
    rw [ih, List.length_cons, Nat.add_assoc, Nat.add_comm 1]

/-- Why a block check rejects a transaction at its turn: it spends an outpoint again, or it is
rejected against the outputs visible to it. -/
inductive RejectedAt (rules : Rules) (base : OutputLookup) (done : List Tx) (tx : Tx)
    (rest : List Tx) : Prop
  /-- An outpoint is named twice by the transaction, or was spent before. -/
  | again (h : ¬ (tx.spentPoints.Nodup ∧
      ∀ point ∈ tx.spentPoints, point ∉ done.flatMap Tx.spentPoints))
  /-- The transaction breaks a rule for the outputs visible to it. -/
  | broken (fault : TxFault) (unspent : ∀ point ∈ tx.spentPoints, point ∉ done.flatMap Tx.spentPoints)
      (h : tx.verify rules
        (visibleAt (createdOutputs (done ++ tx :: rest)) base done.length) = .error fault)

/-- The check of some transactions that rejects one either rejects the first, or accepts it and goes on
to reject another. -/
theorem verifyTxs_cons_error {rules : Rules} {base : OutputLookup} {done rest : List Tx} {tx : Tx}
    {spent : List OutPoint} {rejection : Rejection}
    (hSpent : ∀ point, point ∈ spent ↔ point ∈ done.flatMap Tx.spentPoints)
    (hError : verifyTxs rules (visibleAt (createdOutputs (done ++ tx :: rest)) base) done.length
      ((tx :: rest).zip (doubleSpends spent (tx :: rest))) = .error rejection) :
    (∃ fault, rejection = .tx done.length fault ∧ RejectedAt rules base done tx rest) ∨
      ((∀ point ∈ tx.spentPoints, point ∉ done.flatMap Tx.spentPoints) ∧
        tx.verify rules
          (visibleAt (createdOutputs (done ++ tx :: rest)) base done.length) = .ok () ∧
        verifyTxs rules (visibleAt (createdOutputs (done ++ tx :: rest)) base) (done.length + 1)
          (rest.zip (doubleSpends (tx.spentPoints.reverse ++ spent) rest)) = .error rejection) := by
  have hFresh : (∀ point ∈ tx.spentPoints, point ∉ spent) ↔
      ∀ point ∈ tx.spentPoints, point ∉ done.flatMap Tx.spentPoints := by
    simp only [hSpent]
  simp only [doubleSpends, List.zip_cons_cons, verifyTxs] at hError
  cases hRepeat : firstRepeat spent tx.spentPoints with
  | some point =>
    simp only [hRepeat, andThen_eq_error_iff, reduceCtorEq, false_and, or_false,
      Except.error.injEq] at hError
    have hAgain : ¬ (tx.spentPoints.Nodup ∧
        ∀ point ∈ tx.spentPoints, point ∉ done.flatMap Tx.spentPoints) := by
      rw [← hFresh, ← firstRepeat_eq_none_iff, hRepeat]
      simp
    exact .inl ⟨.spentInBlock point, hError.symm, .again hAgain⟩
  | none =>
    simp only [hRepeat, andThen_eq_error_iff] at hError
    obtain ⟨-, hUnspent⟩ := (firstRepeat_eq_none_iff _ _).1 hRepeat
    rw [hFresh] at hUnspent
    rcases hError with hRejected | ⟨hAccepted, hRest⟩
    · obtain ⟨fault, hFault, hRejection⟩ := mapError_eq_error_iff.1 hRejected
      exact .inl ⟨fault, hRejection.symm, .broken fault hUnspent hFault⟩
    · rw [mapError_eq_ok_iff] at hAccepted
      exact .inr ⟨hUnspent, hAccepted, hRest⟩

/-- A block check that rejects a transaction splits the block there: a ledger accepts the transactions
before it and is kept. -/
theorem Kept.of_verifyTxs_error {rules : Rules} {base : OutputLookup} {done rest : List Tx}
    {set : OutputSet} {spent : List OutPoint} {rejection : Rejection}
    (h : Kept base done rest set)
    (hSpent : ∀ point, point ∈ spent ↔ point ∈ done.flatMap Tx.spentPoints)
    (hError : verifyTxs rules (visibleAt (createdOutputs (done ++ rest)) base) done.length
      (rest.zip (doubleSpends spent rest)) = .error rejection) :
    ∃ before tx after left fault, rest = before ++ tx :: after ∧
      rejection = .tx (done.length + before.length) fault ∧
      replay rules done.length set before = .ok left ∧
      Kept base (done ++ before) (tx :: after) left ∧
      RejectedAt rules base (done ++ before) tx after := by
  -- The induction is over what remains; `Kept` is what each accepted transaction keeps.
  induction rest generalizing done set spent with
  | nil => exact absurd hError (by simp [doubleSpends, verifyTxs])
  | cons tx rest ih =>
    rcases verifyTxs_cons_error hSpent hError with
      ⟨fault, hRejection, hRejected⟩ | ⟨hUnspent, hOk, hRest⟩
    · rw [← List.append_nil done] at h hRejected
      exact ⟨[], tx, rest, set, fault, rfl, hRejection, rfl, h, hRejected⟩
    · obtain ⟨hAccepted, hKept⟩ := h.settle hUnspent hOk
      have hSplit : done ++ tx :: rest = (done ++ [tx]) ++ rest := by simp
      have hLength : done.length + 1 = (done ++ [tx]).length := by simp
      rw [hSplit, hLength] at hRest
      have hNext : ∀ point, point ∈ tx.spentPoints.reverse ++ spent ↔
          point ∈ (done ++ [tx]).flatMap Tx.spentPoints := by
        intro point
        simp [hSpent, or_comm]
      obtain ⟨before, other, after, left, fault, rfl, hRejection, hReplay, hLeft, hRejected⟩ :=
        ih hKept hNext hRest
      rw [List.append_assoc, List.singleton_append] at hLeft hRejected
      refine ⟨tx :: before, other, after, left, fault, rfl, ?_, ?_, hLeft, hRejected⟩
      · rw [hRejection, ← hLength, List.length_cons, Nat.add_assoc, Nat.add_comm 1]
      · rw [replay, hAccepted, hLength]
        exact hReplay

/-- The ledger rejects the transaction too, if no outpoint that the transaction spends is created at
or after it in place of what the ledger has. -/
theorem Kept.exists_fault {rules : Rules} {base : OutputLookup} {done rest : List Tx}
    {set : OutputSet} {tx : Tx} (h : Kept base done (tx :: rest) set)
    (hRejected : RejectedAt rules base done tx rest)
    (hShown : ∀ point ∈ tx.spentPoints, ∀ later ∈ tx :: rest, later.lastOutput? point ≠ none →
      base point = none ∧ ∀ earlier ∈ done, earlier.lastOutput? point = none) :
    ∃ fault, tx.verify rules set.get? = .error fault := by
  cases hRejected with
  | again hAgain =>
    cases hVerify : tx.verify rules set.get? with
    | error fault => exact ⟨fault, rfl⟩
    | ok accepted =>
      refine absurd ⟨Tx.nodup_spentPoints_of_verify hVerify, ?_⟩ hAgain
      intro point hPoint hSpent
      obtain ⟨output, hOutput⟩ := Tx.exists_output_of_verify hVerify hPoint
      rw [(h.spent point hSpent).1] at hOutput
      exact absurd hOutput (by simp)
  | broken fault hUnspent hFault =>
    have hSame : ∀ point ∈ tx.spentPoints, set.get? point =
        visibleAt (createdOutputs (done ++ tx :: rest)) base done.length point := by
      intro point hPoint
      rw [h.unspent point (hUnspent point hPoint)]
      by_cases hLater : ∀ other ∈ tx :: rest, other.lastOutput? point = none
      · rw [visibleAt_append_eq hLater]
      · -- What is created later hides nothing here: the ledger has nothing under the outpoint.
        push Not at hLater
        obtain ⟨later, hMem, hOutput⟩ := hLater
        obtain ⟨hBase, hDone⟩ := hShown point hPoint later hMem hOutput
        rw [visibleAt_append_eq_none hMem hOutput, visibleAt_eq_base hDone, hBase]
    rw [Tx.verify_congr rules hSame]
    exact ⟨fault, hFault⟩

/-- No transaction that stands both before a position and again at it or later creates what the
transaction at the position spends. -/
def Block.ShownAt (txs : List Tx) (position : Nat) : Prop :=
  ∀ tx, txs[position]? = some tx → ∀ creator ∈ txs.take position, creator ∈ txs.drop position →
    ∀ point ∈ tx.spentPoints, point.txId ≠ creator.id

/-- A block that is rejected for a transaction is rejected by the check of its transactions. -/
theorem Block.verifyTxs_error_of_verify {rules : Rules} {lookup : OutputLookup} {block : Block}
    {prev adjustment : Option BlockHeader} {position : Nat} {fault : TxFault}
    (h : block.verify rules lookup prev adjustment = .error (.tx position fault)) :
    verifyTxs rules (visibleAt (createdOutputs block.txs) lookup) 0
      (block.txs.zip (doubleSpends [] block.txs)) = .error (.tx position fault) := by
  rcases andThen_eq_error_iff.1 h with hHeader | ⟨-, hRest⟩
  · obtain ⟨_, -, hOther⟩ := mapError_eq_error_iff.1 hHeader
    exact absurd hOther (by simp)
  · rcases andThen_eq_error_iff.1 hRest with hFrame | ⟨-, hTxs⟩
    · obtain ⟨_, -, hOther⟩ := mapError_eq_error_iff.1 hFrame
      exact absurd hOther (by simp)
    · exact hTxs

/-- Where different bytes have different ids, transactions that create one outpoint are the same. -/
theorem Tx.eq_of_lastOutput? {txs : List Tx} (hWellFormed : ∀ tx ∈ txs, tx.WellFormed)
    (hIds : ∀ one ∈ txs, ∀ other ∈ txs, one.encode ≠ other.encode → one.id ≠ other.id)
    {one other : Tx} (hOne : one ∈ txs) (hOther : other ∈ txs) {point : OutPoint}
    (hCreates : one.lastOutput? point ≠ none) (hId : point.txId = other.id) : one = other := by
  obtain ⟨output, hOutput⟩ := Option.ne_none_iff_exists'.1 hCreates
  have hSame : one.id = other.id := by rw [← Tx.txId_of_lastOutput? hOutput, hId]
  have hBytes : one.encode = other.encode := by
    by_contra hDiffer
    exact hIds one hOne other hOther hDiffer hSame
  exact Tx.inverts_decoder.eq_of_encode_eq (hWellFormed one hOne) (hWellFormed other hOther) hBytes

/-- A ledger accepts all transactions before the one for which a block is rejected, and rejects that
one too unless it spends what a repeated transaction creates, if transactions with different bytes
have different ids and no known output stands under one of these. -/
theorem Block.replay_of_verify_error (rules : Rules) (set : OutputSet) (block : Block)
    (prev adjustment : Option BlockHeader) (position : Nat) (fault : TxFault)
    (hWellFormed : ∀ tx ∈ block.txs, tx.WellFormed)
    (hIds : ∀ one ∈ block.txs, ∀ other ∈ block.txs, one.encode ≠ other.encode → one.id ≠ other.id)
    (hFresh : ∀ tx ∈ block.txs, ∀ point, point.txId = tx.id → set.get? point = none)
    (h : block.verify rules set.get? prev adjustment = .error (.tx position fault)) :
    (∃ left, replay rules 0 set (block.txs.take position) = .ok left) ∧
      (ShownAt block.txs position →
        ∃ reason, replay rules 0 set block.txs = .error (.tx position reason)) := by
  obtain ⟨before, tx, after, left, found, hSplit, hPosition, hReplay, hKept, hRejected⟩ :=
    (Kept.nil set block.txs).of_verifyTxs_error (by simp) (verifyTxs_error_of_verify h)
  obtain rfl : position = before.length := by
    have hSame := (Rejection.tx.inj hPosition).1
    rwa [List.length_nil, Nat.zero_add] at hSame
  rw [List.nil_append] at hKept hRejected
  rw [List.length_nil] at hReplay
  have hBefore : block.txs.take before.length = before := by rw [hSplit, List.take_left]
  have hAfter : block.txs.drop before.length = tx :: after := by rw [hSplit, List.drop_left]
  refine ⟨⟨left, by rw [hBefore, hReplay]⟩, ?_⟩
  intro hShownAt
  have hShown : ∀ point ∈ tx.spentPoints, ∀ later ∈ tx :: after, later.lastOutput? point ≠ none →
      set.get? point = none ∧ ∀ earlier ∈ before, earlier.lastOutput? point = none := by
    intro point hPoint later hLater hCreates
    obtain ⟨output, hOutput⟩ := Option.ne_none_iff_exists'.1 hCreates
    have hId : point.txId = later.id := Tx.txId_of_lastOutput? hOutput
    have hMem : later ∈ block.txs := List.mem_of_mem_drop (hAfter ▸ hLater)
    refine ⟨hFresh later hMem point hId, ?_⟩
    intro earlier hEarlier
    by_contra hHidden
    -- An earlier creator would be the later one, which is repeated.
    have hMem' : earlier ∈ block.txs := List.mem_of_mem_take (hBefore ▸ hEarlier)
    have hSame : earlier = later := Tx.eq_of_lastOutput? hWellFormed hIds hMem' hMem hHidden hId
    have hTx : block.txs[before.length]? = some tx := by simp [hSplit]
    rw [← hBefore, hSame] at hEarlier
    rw [← hAfter] at hLater
    exact hShownAt tx hTx later hEarlier hLater point hPoint hId
  obtain ⟨reason, hReason⟩ := hKept.exists_fault hRejected hShown
  refine ⟨reason, ?_⟩
  rw [hSplit, replay_append, hReplay]
  change replay rules (0 + before.length) left (tx :: after) = _
  rw [replay, hReason, Nat.zero_add]
  rfl

namespace Sample

/-- A block with the header that fits some transactions. -/
def blockOf (txs : List Tx) : Block where
  header := ⟨0, FixedBytes.zero, merkleRootOf txs, 0, FixedBytes.zero, FixedBytes.zero, 0⟩
  txs := txs

/-- The block whose second transaction stands again right after it. -/
def twice : Block := blockOf [mint, spend, spend]

/-- The repeated transaction is rejected by the block check and by a ledger. -/
theorem exists_fault_twice :
    twice.verify rules known.get? none none = .error (.tx 2 (.spentInBlock ⟨mint.id, 0⟩)) ∧
      (∃ left, replay rules 0 known [mint, spend] = .ok left) ∧
      ∃ reason, replay rules 0 known twice.txs = .error (.tx 2 reason) := by
  have hVerify : twice.verify rules known.get? none none =
      .error (.tx 2 (.spentInBlock ⟨mint.id, 0⟩)) := by
    decide +kernel
  have hWellFormed : ∀ tx ∈ twice.txs, tx.WellFormed := by decide +kernel
  have hIds : ∀ one ∈ twice.txs, ∀ other ∈ twice.txs, one.encode ≠ other.encode →
      one.id ≠ other.id := by
    decide +kernel
  have hFresh : ∀ tx ∈ twice.txs, ∀ point, point.txId = tx.id → known.get? point = none :=
    get?_known_of_forall_ne (by decide +kernel)
  obtain ⟨hLeft, hReplay⟩ := Block.replay_of_verify_error rules known twice none none 2 _ hWellFormed
    hIds hFresh hVerify
  have hOthers : ∀ creator ∈ twice.txs, ∀ point ∈ spend.spentPoints, creator ∈ [spend] →
      point.txId ≠ creator.id := by
    decide +kernel
  refine ⟨hVerify, hLeft, hReplay ?_⟩
  intro tx hTx creator hBefore hAfter point hPoint
  obtain rfl : spend = tx := by simpa [twice, blockOf] using hTx
  exact hOthers creator (List.mem_of_mem_take hBefore) point hPoint hAfter

/-- The transaction that spends the first output of the second. -/
def respend : Tx := ⟨0, [⟨⟨spend.id, 0⟩, .empty, 0⟩], [⟨40, lock⟩], 0⟩

/-- The block whose second transaction stands again after its output was spent. -/
def respent : Block := blockOf [mint, spend, respend, spend]

/-- The repeated transaction hides its outputs from the one between its copies: the block check reports
that one, which a ledger accepts, and the ledger rejects the second copy. -/
theorem replay_respent :
    (∀ tx ∈ respent.txs, tx.WellFormed) ∧
      (∀ one ∈ respent.txs, ∀ other ∈ respent.txs, one.encode ≠ other.encode → one.id ≠ other.id) ∧
      (∀ tx ∈ respent.txs, ∀ point, point.txId = tx.id → known.get? point = none) ∧
      respent.verify rules known.get? none none =
        .error (.tx 2 (.unknownOutput 0 ⟨spend.id, 0⟩)) ∧
      (∃ left, replay rules 0 known [mint, spend, respend] = .ok left) ∧
      replay rules 0 known respent.txs = .error (.tx 3 (.unknownOutput 0 ⟨mint.id, 0⟩)) := by
  refine ⟨by decide +kernel, by decide +kernel, ?_, by decide +kernel, ?_, by decide +kernel⟩
  · exact get?_known_of_forall_ne (by decide +kernel)
  · have hOk : (replay rules 0 known [mint, spend, respend]).isOk = true := by decide +kernel
    cases hReplay : replay rules 0 known [mint, spend, respend] with
    | ok left => exact ⟨left, rfl⟩
    | error rejection =>
      rw [hReplay] at hOk
      exact absurd hOk Bool.false_ne_true

end Sample

end UtxoChain
