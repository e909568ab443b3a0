import UtxoChain.Bytes.Fixed

/-!
# Outpoints

An outpoint names one output of one transaction. The all-zero id with the largest index names no
output: it is the sentinel by which a transaction says that it mints.
-/

namespace UtxoChain

/-- The name of an output: the id of its transaction and its place among that one's outputs. -/
structure OutPoint where
  /-- The id of the transaction that holds the output. -/
  txId : Hash256
  /-- The place of the output in its transaction. -/
  index : UInt32
deriving DecidableEq, Inhabited

namespace OutPoint

/-- The index of the mint sentinel. -/
def mintIndex : UInt32 := 0xffffffff

/-- The outpoint that stands for newly minted value. -/
def mint : OutPoint := ⟨FixedBytes.zero, mintIndex⟩

/-- An outpoint is the mint sentinel. -/
def isMint (point : OutPoint) : Bool :=
  point.txId.isZero && point.index == mintIndex

instance : ToString OutPoint := ⟨fun point => s!"{point.txId}:{point.index.toNat}"⟩

/-- The order by transaction id and then by index. -/
def precedes (left right : OutPoint) : Bool :=
  match left.txId.compareBytes right.txId with
  | .lt => true
  | .eq => left.index ≤ right.index
  | .gt => false

end OutPoint

end UtxoChain
