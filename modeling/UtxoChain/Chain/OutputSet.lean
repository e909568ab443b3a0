import UtxoChain.Tx.Format

/-!
# Sets of outputs

The outputs that are known to be spendable, each under its outpoint. A later output under an
outpoint replaces an earlier one.
-/

namespace UtxoChain

/-- Outputs under their outpoints, the latest first; no outpoint occurs twice. -/
structure OutputSet where
  /-- The outpoints with their outputs. -/
  entries : List (OutPoint × TxOut)
deriving DecidableEq, Inhabited

namespace OutputSet

/-- The set without outputs. -/
def empty : OutputSet := ⟨[]⟩

/-- The number of outputs. -/
def size (set : OutputSet) : Nat :=
  set.entries.length

/-- The output under an outpoint. -/
def get? (set : OutputSet) : OutputLookup := fun point =>
  set.entries.lookup point

/-- The set without the output under an outpoint. -/
def erase (set : OutputSet) (point : OutPoint) : OutputSet :=
  ⟨set.entries.filter fun entry => entry.1 != point⟩

/-- The set with an output under an outpoint. -/
def insert (set : OutputSet) (point : OutPoint) (output : TxOut) : OutputSet :=
  ⟨(point, output) :: (set.erase point).entries⟩

/-- The set with several outputs, put in one after the other. -/
def insertAll (set : OutputSet) (outputs : List (OutPoint × TxOut)) : OutputSet :=
  outputs.foldl (fun set entry => set.insert entry.1 entry.2) set

/-- The set without the outputs under several outpoints. -/
def eraseAll (set : OutputSet) (points : List OutPoint) : OutputSet :=
  points.foldl erase set

/-- The set with the outputs that a transaction creates. -/
def addTx (set : OutputSet) (tx : Tx) : OutputSet :=
  set.insertAll tx.created

/-- The set after a transaction: with its outputs, and without everything that its inputs name. -/
def applyTx (set : OutputSet) (tx : Tx) : OutputSet :=
  (set.addTx tx).eraseAll (tx.inputs.map TxIn.point)

/-- The outputs in the order of their outpoints. -/
def toSortedList (set : OutputSet) : List (OutPoint × TxOut) :=
  set.entries.mergeSort fun left right => left.1.precedes right.1

end OutputSet

end UtxoChain
