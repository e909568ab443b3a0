import UtxoChain.Tx.Basic

/-!
# The wire format of transactions

Numbers are written with the most significant byte first, scripts and lists after their lengths. The
id of a transaction is the double hash of its bytes.
-/

namespace UtxoChain

namespace OutPoint

/-- The bytes that write an outpoint. -/
def encode (point : OutPoint) : Bytes :=
  point.txId.toBytes ++ Bytes.ofNatBE 4 point.index.toNat

/-- The outpoint at the cursor. -/
def decoder : Decoder OutPoint := do
  let txId ← Decoder.fixed 32
  let index ← Decoder.word32
  return ⟨txId, index⟩

end OutPoint

/-- The script at the cursor, after its length. -/
def Script.countedDecoder : Decoder Script := do
  Decoder.ofExcept (Script.ofBytes (← Decoder.countedBytes))

namespace TxIn

/-- The bytes that write an input. -/
def encode (input : TxIn) : Bytes :=
  input.point.encode ++ Bytes.counted input.script.encode ++ Bytes.ofNatBE 4 input.lockRel.toNat

/-- The input at the cursor. -/
def decoder : Decoder TxIn := do
  let point ← OutPoint.decoder
  let script ← Script.countedDecoder
  let lockRel ← Decoder.word32
  return ⟨point, script, lockRel⟩

instance : Wire TxIn := ⟨encode, decoder⟩

end TxIn

namespace TxOut

/-- The bytes that write an output. -/
def encode (output : TxOut) : Bytes :=
  Bytes.ofNatBE 8 output.value.toNat ++ Bytes.counted output.script.encode

/-- The output at the cursor. -/
def decoder : Decoder TxOut := do
  let value ← Decoder.word64
  let script ← Script.countedDecoder
  return ⟨value, script⟩

instance : Wire TxOut := ⟨encode, decoder⟩

end TxOut

namespace Tx

/-- The bytes that write a transaction. -/
def encode (tx : Tx) : Bytes :=
  tx.version :: Bytes.countedList TxIn.encode tx.inputs
    ++ Bytes.countedList TxOut.encode tx.outputs ++ Bytes.ofNatBE 4 tx.lockAbs.toNat

/-- The transaction at the cursor. -/
def decoder : Decoder Tx := do
  let version ← Decoder.byte
  let inputs ← Decoder.counted TxIn.decoder
  let outputs ← Decoder.counted TxOut.decoder
  let lockAbs ← Decoder.word32
  return ⟨version, inputs, outputs, lockAbs⟩

instance : Wire Tx := ⟨encode, decoder⟩

/-- The single hash of the transaction. -/
def hash (tx : Tx) : Hash256 :=
  singleHash tx.encode

/-- The id of the transaction, which is the double hash. -/
def id (tx : Tx) : Hash256 :=
  doubleHash tx.encode

/-- The outputs of the transaction with the outpoints that name them. -/
def created (tx : Tx) : List (OutPoint × TxOut) :=
  let txId := tx.id
  tx.outputs.mapIdx fun index output => (⟨txId, UInt32.ofNat index⟩, output)

end Tx

end UtxoChain
