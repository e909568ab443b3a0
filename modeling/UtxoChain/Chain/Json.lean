import UtxoChain.Chain.Block
import UtxoChain.Chain.Params
import UtxoChain.Json.Parser
import UtxoChain.Tx.Json

/-!
# Blocks and parameters as JSON

The JSON forms of headers, blocks and parameters. A document of parameters may leave out any field,
which then has the value of the network.
-/

namespace UtxoChain

namespace BlockHeader

/-- The JSON form of a header. -/
def toJson (header : BlockHeader) : Json :=
  .object [("version", .natural header.version.toNat),
    ("prev_block_id", header.prevBlockId.toJson), ("merkle_root", header.merkleRoot.toJson),
    ("timestamp", .natural header.timestamp.toNat), ("target", header.target.toJson),
    ("nonce", header.nonce.toJson), ("index", .natural header.index.toNat)]

/-- The names of the fields of a header. -/
def fieldNames : List String :=
  ["version", "prev_block_id", "merkle_root", "timestamp", "target", "nonce", "index"]

/-- The header of a JSON form. -/
def ofJson? (json : Json) : Option BlockHeader := do
  match ← json.fields? fieldNames with
  | [some version, some prevBlockId, some merkleRoot, some timestamp, some target, some nonce,
      some index] =>
    return ⟨← version.toWord32?, ← FixedBytes.ofJson? prevBlockId, ← FixedBytes.ofJson? merkleRoot,
      ← timestamp.toWord64?, ← FixedBytes.ofJson? target, ← FixedBytes.ofJson? nonce,
      ← index.toWord64?⟩
  | _ => none

end BlockHeader

namespace Block

/-- The JSON form of a block. -/
def toJson (block : Block) : Json :=
  .object [("header", block.header.toJson), ("txs", .array (block.txs.map Tx.toJson))]

/-- The block of a JSON form. -/
def ofJson? (json : Json) : Option Block := do
  match ← json.fields? ["header", "txs"] with
  | [some header, some txs] => return ⟨← BlockHeader.ofJson? header, ← txs.toList? Tx.ofJson?⟩
  | _ => none

end Block

namespace Params

/-- The JSON form of parameters. -/
def toJson (params : Params) : Json :=
  .object [("blocks_per_adjustment", .natural params.blocksPerAdjustment.toNat),
    ("block_interval_seconds", .natural params.blockIntervalSeconds.toNat),
    ("max_script_ops", .natural params.maxScriptOps.toNat)]

/-- The word of a field, or a default where the field is missing. -/
def wordOr (default : UInt64) : Option Json → Option UInt64
  | none => some default
  | some json => json.toWord64?

/-- The parameters of a JSON form. -/
def ofJson? (json : Json) : Option Params := do
  let names := ["blocks_per_adjustment", "block_interval_seconds", "max_script_ops"]
  match ← json.fields? names with
  | [blocks, seconds, ops] =>
    return ⟨← wordOr network.blocksPerAdjustment blocks,
      ← wordOr network.blockIntervalSeconds seconds, ← wordOr network.maxScriptOps ops⟩
  | _ => none

/-- The parameters of a document, if they can be used. -/
def parse (text : String) : Except ParamsFault Params :=
  match Json.parse? text >>= ofJson? with
  | none => .error .unparsable
  | some params => do
    params.validate
    return params

end Params

end UtxoChain
