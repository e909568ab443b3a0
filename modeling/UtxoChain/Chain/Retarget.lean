import UtxoChain.Chain.Block
import UtxoChain.Chain.Params

/-!
# Targets and successors

At the end of a period the target is scaled by the time that the period took, relative to the time it
should have taken. The time counts as at least half and at most four times what it should be. In all
other places the target stays as it is.
-/

namespace UtxoChain

/-- The least and the greatest time that a period of the given length counts as. -/
def clampPeriod (interval elapsed : Nat) : Nat :=
  min (max elapsed (interval / 2)) (interval * 4)

/-- The target after a period that took `elapsed` seconds. -/
def newTarget (target : Hash256) (elapsed : UInt64) (params : Params) :
    Except RetargetFault Hash256 := do
  params.validate.mapError .params
  let interval := params.adjustmentInterval.toNat
  let scaled := target.toNat * clampPeriod interval elapsed.toNat / interval
  if scaled < Bytes.bound 32 then return FixedBytes.ofNat scaled else throw .targetTooLarge

namespace BlockHeader

/-- The version of the headers that are proposed. -/
def proposedVersion : UInt32 := 0

/-- The target of the header at `index` after `prev`. Where it is adjusted, `adjustment` must be the
header that opened the period. -/
def nextTarget (prev : BlockHeader) (adjustment : Option BlockHeader) (index : UInt64)
    (params : Params) : Except RetargetFault Hash256 :=
  if params.isAdjustmentIndex index then
    match adjustment with
    | none => .error (.link (.adjustmentMissing index))
    | some opening =>
      if checkedAdd opening.index params.blocksPerAdjustment = some index then
        let elapsed :=
          if opening.timestamp ≤ prev.timestamp then prev.timestamp - opening.timestamp else 0
        newTarget prev.target elapsed params
      else .error (.link (.adjustmentMismatch opening.index index))
  else .ok prev.target

/-- The header after `prev`, as it is proposed before its transactions and its nonce are known. -/
def successor (prev : BlockHeader) (adjustment : Option BlockHeader) (timestamp : UInt64)
    (params : Params) : Except RetargetFault BlockHeader := do
  params.validate.mapError .params
  match checkedAdd prev.index 1 with
  | none => throw (.link .indexOverflow)
  | some index =>
    let target ← nextTarget prev adjustment index params
    return ⟨proposedVersion, prev.id, FixedBytes.zero, timestamp, target, FixedBytes.zero, index⟩

/-- The target that a header must carry after `prev`. -/
def expectedTarget (header prev : BlockHeader) (adjustment : Option BlockHeader)
    (params : Params) : Except RetargetFault Hash256 :=
  (prev.successor adjustment header.timestamp params).map target

end BlockHeader

end UtxoChain
