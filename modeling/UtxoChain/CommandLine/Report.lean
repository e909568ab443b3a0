import UtxoChain.Chain.Json
import UtxoChain.Chain.Retarget
import UtxoChain.CommandLine.Arguments
import UtxoChain.Json.Printer
import UtxoChain.Machine.Run

/-!
# Command line reports

What each command prints. Records are printed as indented JSON with the names of every record in
order; the other commands print one line.
-/

namespace UtxoChain.CommandLine

/-- The text of a record. -/
def record (members : List (String × Json)) : String :=
  (Json.object members).sorted.indented

/-- The text of a transaction. -/
def txReport (tx : Tx) : String :=
  record [("id", tx.id.toJson), ("mint", .bool tx.isMint), ("tx", tx.toJson)]

/-- The text of a signature digest. -/
def sighashReport (tx : Tx) (request : SighashRequest) : Except Error String := do
  let preimage ← (tx.preimage request).mapError MissingInput.toError
  return record [("preimage", .text (Hex.encode preimage)),
    ("sighash", (doubleHash preimage).toJson)]

/-- The text of the verdict on a script; the reason is left out if the script succeeds. -/
def outcomeReport (outcome : Machine.Outcome) : String :=
  let value := match outcome.returnValue with
    | some bytes => Json.text (Hex.encode bytes)
    | none => .null
  let reason := match outcome.failure with
    | some failure => [("reason", Json.text failure.message)]
    | none => []
  record (("success", .bool outcome.success) :: ("return_value", value) :: reason)

/-- The text of a header. -/
def headerReport (params : Params) (header : BlockHeader) : String :=
  record [("id", header.id.toJson), ("hash", header.hash.toJson),
    ("genesis", .bool header.isGenesis), ("target_valid", .bool header.meetsTarget),
    ("adjustment", .bool (params.isAdjustmentIndex header.index)), ("header", header.toJson)]

/-- The text of a block. -/
def blockReport (block : Block) : String :=
  record [("id", block.id.toJson), ("merkle_root_valid", .bool block.hasValidMerkleRoot),
    ("tx_ids", .array (block.txs.map fun tx => tx.id.toJson)), ("block", block.toJson)]

/-- What a command prints, without the end of the line. -/
def Command.report (params : Params) : Command → Except Error String
  | .txDecode hex => do
    return txReport (← Wire.ofHex hex)
  | .txSighash hex input script amount hashType => do
    let tx : Tx ← Wire.ofHex hex
    let script ← Script.ofText script
    sighashReport tx ⟨input, script.encode, amount, hashType⟩
  | .scriptRun text => do
    let script ← Script.ofText text
    return outcomeReport (Machine.evaluate script [] none params.maxScriptOps.toNat)
  | .scriptHex text => do
    return Hex.encode (← Script.ofText text).encode
  | .scriptText hex => do
    return (← Script.ofBytes (← bytesOfHex hex)).toText
  | .headerDecode hex => do
    return headerReport params (← Wire.ofHex hex)
  | .headerRetarget target timeDiff => do
    let target ← FixedBytes.ofHex target
    return (← (newTarget target timeDiff params).mapError RetargetFault.toError).toHex
  | .blockDecode hex => do
    return blockReport (← Wire.ofHex hex)

/-- The parameters of an invocation: those of its file, or those of the network. `read` gives the
content of a file, or the reason why there is none. -/
def Invocation.params (invocation : Invocation) (read : String → Except String String) :
    Except Error Params :=
  match invocation.paramsPath with
  | none => .ok Params.network
  | some path =>
    match read path with
    | .error reason => .error (.config (.unreadable path reason))
    | .ok content => (Params.parse content).mapError .config

/-- What an invocation prints. The parameters are read before the command is looked at. -/
def Invocation.output (invocation : Invocation) (read : String → Except String String) :
    Except Error String := do
  let params ← invocation.params read
  return (← invocation.command.report params) ++ "\n"

end UtxoChain.CommandLine
