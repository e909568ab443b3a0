import UtxoChain.Proofs.Chain.Reading
import UtxoChain.Proofs.Ledger.Conservation
import UtxoChain.Proofs.Wire.Truncation

/-!
# Damaged encodings

Inputs, outputs, transactions, headers and blocks run short on every part of their bytes that is cut
off, wherever the cut falls: in a number, in a count, in a script or between two of them. So a
truncated value is always refused as too short, and a value with further bytes behind it is always
refused for as many bytes as were added (`Wire.detectsDamage`).
-/

namespace UtxoChain

open Decoder Stateful

/-! ## Transactions -/

/-- An outpoint runs short on its encoding. -/
theorem OutPoint.runsShort_decoder (point : OutPoint) : decoder.RunsShort point.encode := by
  apply (runsShort_fixed point.txId).bind (reads_fixed point.txId)
  exact (runsShort_word32 point.index).bind_left

/-- A well-formed script runs short on its length and its encoding. -/
theorem Script.runsShort_countedDecoder {script : Script} (h : script.WellFormed) :
    countedDecoder.RunsShort (Bytes.counted script.encode) :=
  (runsShort_countedBytes h.length_lt).bind_left

/-- The length and the encoding of a well-formed script are read as the script. -/
theorem Script.reads_countedDecoder {script : Script} (h : script.WellFormed) :
    countedDecoder.Reads (Bytes.counted script.encode) script :=
  fun _ _ hTook => countedDecoder_ok_iff.2 ⟨h, hTook⟩

/-- An input whose script is well-formed runs short on its encoding. -/
theorem TxIn.runsShort_decoder {input : TxIn} (h : input.script.WellFormed) :
    decoder.RunsShort input.encode := by
  have hPoint : OutPoint.decoder.Reads input.point.encode input.point :=
    OutPoint.inverts_decoder.reads trivial
  unfold encode decoder
  rw [List.append_assoc]
  apply (OutPoint.runsShort_decoder input.point).bind hPoint
  apply (Script.runsShort_countedDecoder h).bind (Script.reads_countedDecoder h)
  exact (runsShort_word32 input.lockRel).bind_left

/-- An output whose script is well-formed runs short on its encoding. -/
theorem TxOut.runsShort_decoder {output : TxOut} (h : output.script.WellFormed) :
    decoder.RunsShort output.encode := by
  apply (runsShort_word64 output.value).bind (reads_word64 output.value)
  exact (Script.runsShort_countedDecoder h).bind_left

/-- A well-formed transaction runs short on its encoding. -/
theorem Tx.runsShort_decoder {tx : Tx} (h : tx.WellFormed) : decoder.RunsShort tx.encode := by
  have hInputs := reads_counted TxIn.inverts_decoder h.inputs_length_lt h.inputs
  have hOutputs := reads_counted TxOut.inverts_decoder h.outputs_length_lt h.outputs
  -- Bracketed to the right, the parts are met one at a time.
  have hParts : tx.encode = [tx.version] ++ (Bytes.countedList TxIn.encode tx.inputs
      ++ (Bytes.countedList TxOut.encode tx.outputs ++ Bytes.ofNatBE 4 tx.lockAbs.toNat)) := by
    simp [encode]
  rw [hParts]
  apply (runsShort_byte tx.version).bind (reads_byte tx.version)
  apply (runsShort_counted TxIn.inverts_decoder h.inputs_length_lt h.inputs
    fun _ hInput => TxIn.runsShort_decoder hInput).bind hInputs
  apply (runsShort_counted TxOut.inverts_decoder h.outputs_length_lt h.outputs
    fun _ hOutput => TxOut.runsShort_decoder hOutput).bind hOutputs
  exact (runsShort_word32 tx.lockAbs).bind_left

/-! ## Blocks -/

/-- A header runs short on its encoding. -/
theorem BlockHeader.runsShort_decoder (header : BlockHeader) :
    decoder.RunsShort header.encode := by
  have hParts : header.encode = Bytes.ofNatBE 4 header.version.toNat ++ (header.prevBlockId.toBytes
      ++ (header.merkleRoot.toBytes ++ (Bytes.ofNatBE 8 header.timestamp.toNat
      ++ (header.target.toBytes ++ (header.nonce.toBytes
      ++ Bytes.ofNatBE 8 header.index.toNat))))) := by
    simp [encode]
  rw [hParts]
  apply (runsShort_word32 header.version).bind (reads_word32 _)
  apply (runsShort_fixed header.prevBlockId).bind (reads_fixed _)
  apply (runsShort_fixed header.merkleRoot).bind (reads_fixed _)
  apply (runsShort_word64 header.timestamp).bind (reads_word64 _)
  apply (runsShort_fixed header.target).bind (reads_fixed _)
  apply (runsShort_fixed header.nonce).bind (reads_fixed _)
  exact (runsShort_word64 header.index).bind_left

/-- A well-formed block runs short on its encoding. -/
theorem Block.runsShort_decoder {block : Block} (h : block.WellFormed) :
    decoder.RunsShort block.encode := by
  have hHeader : BlockHeader.decoder.Reads block.header.encode block.header :=
    BlockHeader.inverts_decoder.reads trivial
  apply (BlockHeader.runsShort_decoder block.header).bind hHeader
  apply RunsShort.bind_left
  exact runsShort_counted Tx.inverts_decoder h.txs_length_lt h.txs
    fun _ hTx => Tx.runsShort_decoder hTx

/-! ## Damage -/

/-- Damaged bytes of a valid value are refused for what is wrong with them. -/
structure Wire.DetectsDamage (α : Type) [Wire α] (valid : α → Prop) : Prop where
  /-- If bytes are missing at the end, the error says that the input is too short. -/
  truncated : ∀ value : α, valid value → ∀ count < (Wire.encode value).length,
    ∃ fault, Wire.decode (α := α) ((Wire.encode value).take count) = .error fault ∧
      fault.TellsShort
  /-- If bytes are added at the end, the error tells their number. -/
  extended : ∀ value : α, valid value → ∀ rest ≠ [],
    Wire.decode (α := α) (Wire.encode value ++ rest) = .error (.tooMuchData rest.length)

/-- A format whose decoder inverts its encoder and runs short on what it writes detects damage. -/
theorem Wire.detectsDamage_of_runsShort {α : Type} [Wire α] {valid : α → Prop}
    (h : Inverts (Wire.decoder (α := α)) Wire.encode valid)
    (hShort : ∀ value : α, valid value → Wire.decoder.RunsShort (α := α) (Wire.encode value)) :
    DetectsDamage α valid := by
  refine ⟨?_, ?_⟩
  · intro value hValid count hCount
    exact (hShort value hValid).decodeAll_take hCount
  · intro value hValid rest hRest
    exact h.decodeAll_append hValid hRest

/-- Damaged inputs, outputs, transactions, headers and blocks are refused for what is wrong with them:
cut off anywhere as too short, and with bytes added for their number. -/
theorem Wire.detectsDamage :
    DetectsDamage TxIn (fun input => input.script.WellFormed) ∧
      DetectsDamage TxOut (fun output => output.script.WellFormed) ∧
      DetectsDamage Tx Tx.WellFormed ∧
      DetectsDamage BlockHeader (fun _ => True) ∧
      DetectsDamage Block Block.WellFormed := by
  refine ⟨?_, ?_, ?_, ?_, ?_⟩
  · exact detectsDamage_of_runsShort TxIn.inverts_decoder fun _ => TxIn.runsShort_decoder
  · exact detectsDamage_of_runsShort TxOut.inverts_decoder fun _ => TxOut.runsShort_decoder
  · exact detectsDamage_of_runsShort Tx.inverts_decoder fun _ => Tx.runsShort_decoder
  · exact detectsDamage_of_runsShort BlockHeader.inverts_decoder fun header _ =>
      BlockHeader.runsShort_decoder header
  · exact detectsDamage_of_runsShort Block.inverts_decoder fun _ => Block.runsShort_decoder

namespace Sample

/-- The block of two transactions without its last byte is refused as too short, and with two more bytes
it is refused for these. -/
theorem decode_damaged_block :
    block.WellFormed ∧
      (∃ fault, Wire.decode (α := Block) ((Wire.encode block).take ((Wire.encode block).length - 1)) =
        .error fault ∧ fault.TellsShort) ∧
      Wire.decode (α := Block) (Wire.encode block ++ [0, 1]) = .error (.tooMuchData 2) := by
  have hBlock : block.WellFormed := by decide +kernel
  have hPos : 0 < (Wire.encode block).length := by decide +kernel
  obtain ⟨-, -, -, -, hDetects⟩ := Wire.detectsDamage
  refine ⟨hBlock, ?_, ?_⟩
  · exact hDetects.truncated block hBlock _ (Nat.sub_one_lt_of_lt hPos)
  · exact hDetects.extended block hBlock [0, 1] (by decide)

end Sample

end UtxoChain
