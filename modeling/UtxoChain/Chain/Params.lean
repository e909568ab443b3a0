import UtxoChain.Error.Basic

/-!
# Parameters of the chain

The length of an adjustment period, in blocks and in seconds for each of them, and the limit on the
opcodes of a script.
-/

namespace UtxoChain

/-- The parameters of the rules. -/
structure Params where
  /-- The number of blocks between two adjustments of the target. -/
  blocksPerAdjustment : UInt64
  /-- The intended number of seconds between two blocks. -/
  blockIntervalSeconds : UInt64
  /-- The most opcodes that a script may count. -/
  maxScriptOps : UInt64
deriving DecidableEq

namespace Params

/-- The parameters of the network. -/
def network : Params := ⟨2016, 600, 10000⟩

instance : Inhabited Params := ⟨network⟩

/-- The number of seconds that a period takes if blocks keep to their interval. -/
def exactInterval (params : Params) : Nat :=
  params.blocksPerAdjustment.toNat * params.blockIntervalSeconds.toNat

/-- The seconds of a period, or the largest word if they exceed it. -/
def adjustmentInterval (params : Params) : UInt64 :=
  UInt64.ofNat (min params.exactInterval (UInt64.size - 1))

/-- The target is adjusted at this index. -/
def isAdjustmentIndex (params : Params) (index : UInt64) : Bool :=
  0 < index && params.blocksPerAdjustment != 0 && index % params.blocksPerAdjustment == 0

/-- A period is not empty, and four periods fit a word. -/
def validate (params : Params) : Except ParamsFault Unit :=
  if params.blocksPerAdjustment = 0 ∨ params.blockIntervalSeconds = 0 then .error .zeroPeriod
  else if UInt64.size ≤ params.exactInterval * 4 then .error .intervalOverflow
  else .ok ()

end Params

end UtxoChain
