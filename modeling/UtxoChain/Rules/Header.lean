import UtxoChain.Chain.Retarget
import UtxoChain.Rules.Transaction

/-!
# The rules for a header

A header that does not start a chain must have its digest below its target. After its predecessor it
must name that one, follow it in index and time, and carry the target that `successor` proposes.
-/

namespace UtxoChain.BlockHeader

/-- A header has its place after its predecessor. -/
def verifyLink (header prev : BlockHeader) (adjustment : Option BlockHeader) (params : Params) :
    Except HeaderFault Unit :=
  if header.prevBlockId ≠ prev.id then .error (.previousId header.prevBlockId prev.id)
  else if checkedAdd prev.index 1 ≠ some header.index then
    .error (.index header.index prev.index)
  else if header.timestamp < prev.timestamp then
    .error (.timestamp header.timestamp prev.timestamp)
  else
    match header.expectedTarget prev adjustment params with
    | .error fault => .error (.noTarget fault)
    | .ok expected =>
      if header.target = expected then .ok () else .error (.target header.target expected)

/-- A header keeps the rules. The first header of a chain needs no work, and no other header goes
without a predecessor. -/
def verify (params : Params) (header : BlockHeader) (prev adjustment : Option BlockHeader) :
    Except HeaderFault Unit :=
  if !header.isGenesis && !header.meetsTarget then
    .error (.aboveTarget header.hash header.target)
  else
    match prev with
    | none => if header.isGenesis then .ok () else .error .missingPrevious
    | some prev => header.verifyLink prev adjustment params

end UtxoChain.BlockHeader
