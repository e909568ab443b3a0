import UtxoChain.Chain.OutputSet
import UtxoChain.Proofs.Ledger.Created

/-!
# The output set after a transaction

To settle a transaction is to take the outputs that it spends out of the set and to put those that it
creates in. The lemmas say what stands under an outpoint afterwards.
-/

namespace UtxoChain

namespace OutputSet

/-- The first entry is found under its own outpoint only. -/
theorem lookup_cons_eq_ite (entries : List (OutPoint × TxOut)) (key point : OutPoint)
    (output : TxOut) :
    ((key, output) :: entries).lookup point =
      if point = key then some output else entries.lookup point := by
  rw [List.lookup_cons]
  split_ifs with hPoint
  · rw [hPoint, beq_self_eq_true]
  · rw [beq_false_of_ne hPoint]

/-- Nothing stands under an outpoint that was erased, and the others are kept. -/
theorem get?_erase (set : OutputSet) (erased point : OutPoint) :
    (set.erase erased).get? point = if point = erased then none else set.get? point := by
  obtain ⟨entries⟩ := set
  unfold erase get?
  dsimp only
  induction entries with
  | nil => simp
  | cons entry entries ih =>
    obtain ⟨key, output⟩ := entry
    -- An erased entry is passed over; a kept one is found first under its own outpoint.
    by_cases hKey : key = erased
    · rw [List.filter_cons_of_neg (by simp [hKey]), ih, lookup_cons_eq_ite, hKey]
      split_ifs <;> rfl
    · rw [List.filter_cons_of_pos (by simp [hKey]), lookup_cons_eq_ite, lookup_cons_eq_ite, ih]
      by_cases hPoint : point = key
      · rw [if_pos hPoint, if_pos hPoint, if_neg (hPoint ▸ hKey)]
      · rw [if_neg hPoint, if_neg hPoint]

/-- The output that was put in stands under its outpoint, and the others are kept. -/
theorem get?_insert (set : OutputSet) (inserted point : OutPoint) (output : TxOut) :
    (set.insert inserted output).get? point =
      if point = inserted then some output else set.get? point := by
  have hErase := get?_erase set inserted point
  unfold insert get? at *
  rw [lookup_cons_eq_ite, hErase]
  split_ifs <;> rfl

/-- Nothing stands under the outpoints that were erased, and the others are kept. -/
theorem get?_eraseAll (set : OutputSet) (points : List OutPoint) (point : OutPoint) :
    (set.eraseAll points).get? point = if point ∈ points then none else set.get? point := by
  unfold eraseAll
  induction points generalizing set with
  | nil => simp
  | cons first rest ih =>
    rw [List.foldl_cons, ih, get?_erase]
    by_cases hRest : point ∈ rest
    · simp [hRest]
    · by_cases hFirst : point = first
      · simp [hFirst]
      · simp [hRest, hFirst]

/-- The last output that was put in under an outpoint stands there, and the others are kept. -/
theorem get?_insertAll (set : OutputSet) (outputs : List (OutPoint × TxOut)) (point : OutPoint) :
    (set.insertAll outputs).get? point = (outputs.reverse.lookup point).or (set.get? point) := by
  unfold insertAll
  induction outputs generalizing set with
  | nil => simp
  | cons entry outputs ih =>
    obtain ⟨key, output⟩ := entry
    rw [List.foldl_cons, ih, get?_insert, List.reverse_cons, List.lookup_append, Option.or_assoc,
      lookup_cons_eq_ite]
    split_ifs <;> simp

/-- The set after a transaction: without the outputs that it spends, and with those that it
creates. -/
def settle (set : OutputSet) (tx : Tx) : OutputSet :=
  (set.eraseAll tx.spentPoints).addTx tx

/-- After a transaction the last outputs that it creates are there, and of the others those that it
does not spend. -/
theorem get?_settle_last (set : OutputSet) (tx : Tx) (point : OutPoint) :
    (set.settle tx).get? point =
      (tx.lastOutput? point).or (if point ∈ tx.spentPoints then none else set.get? point) := by
  unfold settle addTx
  rw [get?_insertAll, get?_eraseAll]
  rfl

/-- After a transaction the outputs that it creates are there, and of the others those that it does
not spend. -/
theorem get?_settle (set : OutputSet) {tx : Tx} (hCount : tx.outputs.length < 2 ^ 32)
    (point : OutPoint) :
    (set.settle tx).get? point =
      (tx.output? point).or (if point ∈ tx.spentPoints then none else set.get? point) := by
  rw [get?_settle_last, Tx.lastOutput?_eq_output? hCount]

end OutputSet

end UtxoChain
