import UtxoChain.Json.Value
import UtxoChain.Tx.Format

/-!
# Transactions as JSON

A second form of scripts and transactions. Hashes and scripts are texts of hexadecimal digits, values
and locks are numbers, and a script is written by its wire bytes, so that its push opcodes are kept.
-/

namespace UtxoChain

/-- The JSON form of bytes of fixed width. -/
def FixedBytes.toJson {width : Nat} (fixed : FixedBytes width) : Json :=
  .text fixed.toHex

/-- The bytes of fixed width of a JSON form. -/
def FixedBytes.ofJson? {width : Nat} (json : Json) : Option (FixedBytes width) := do
  (FixedBytes.ofHex (← json.toText?)).toOption

/-- The JSON form of a script. -/
def Script.toJson (script : Script) : Json :=
  .text (Hex.encode script.encode)

/-- The script of a JSON form. -/
def Script.ofJson? (json : Json) : Option Script := do
  Script.ofBytes (← (bytesOfHex (← json.toText?)).toOption) |>.toOption

namespace Json

/-- The word of 64 bits of a JSON form. -/
def toWord64? (json : Json) : Option UInt64 :=
  (json.toNat? UInt64.size).map UInt64.ofNat

/-- The word of 32 bits of a JSON form. -/
def toWord32? (json : Json) : Option UInt32 :=
  (json.toNat? UInt32.size).map UInt32.ofNat

/-- The byte of a JSON form. -/
def toByte? (json : Json) : Option UInt8 :=
  (json.toNat? UInt8.size).map UInt8.ofNat

end Json

namespace TxIn

/-- The JSON form of an input. -/
def toJson (input : TxIn) : Json :=
  .object [("input_tx_id", input.point.txId.toJson),
    ("input_tx_n_out", .natural input.point.index.toNat), ("script", input.script.toJson),
    ("lock_rel", .natural input.lockRel.toNat)]

/-- The input of a JSON form. -/
def ofJson? (json : Json) : Option TxIn := do
  match ← json.fields? ["input_tx_id", "input_tx_n_out", "script", "lock_rel"] with
  | [some txId, some index, some script, some lockRel] =>
    return ⟨⟨← FixedBytes.ofJson? txId, ← index.toWord32?⟩, ← Script.ofJson? script,
      ← lockRel.toWord32?⟩
  | _ => none

end TxIn

namespace TxOut

/-- The JSON form of an output. -/
def toJson (output : TxOut) : Json :=
  .object [("value", .natural output.value.toNat), ("script", output.script.toJson)]

/-- The output of a JSON form. -/
def ofJson? (json : Json) : Option TxOut := do
  match ← json.fields? ["value", "script"] with
  | [some value, some script] => return ⟨← value.toWord64?, ← Script.ofJson? script⟩
  | _ => none

end TxOut

namespace Tx

/-- The JSON form of a transaction. -/
def toJson (tx : Tx) : Json :=
  .object [("version", .natural tx.version.toNat), ("inputs", .array (tx.inputs.map TxIn.toJson)),
    ("outputs", .array (tx.outputs.map TxOut.toJson)), ("lock_abs", .natural tx.lockAbs.toNat)]

/-- The transaction of a JSON form. -/
def ofJson? (json : Json) : Option Tx := do
  match ← json.fields? ["version", "inputs", "outputs", "lock_abs"] with
  | [some version, some inputs, some outputs, some lockAbs] =>
    return ⟨← version.toByte?, ← inputs.toList? TxIn.ofJson?, ← outputs.toList? TxOut.ofJson?,
      ← lockAbs.toWord32?⟩
  | _ => none

end Tx

end UtxoChain
