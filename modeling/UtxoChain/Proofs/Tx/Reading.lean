import UtxoChain.Proofs.Script.Reading
import UtxoChain.Tx.Format

/-!
# Reading transactions

Exactly the transactions with well-formed scripts are read from bytes, each from its own encoding, and
likewise the inputs and the outputs they are made of.
-/

namespace UtxoChain

open Decoder Stateful

/-- An outpoint is read from its encoding. -/
theorem OutPoint.decoder_ok_iff {start stop : Cursor} {point : OutPoint} :
    decoder start = .ok point stop ↔ start.Took point.encode stop := by
  unfold decoder encode
  simp only [bind_ok_iff, fixed_ok_iff, word32_ok_iff, pure_ok_iff, Cursor.took_append_iff]
  constructor
  · rintro ⟨txId, afterId, hId, index, _, hIndex, rfl, rfl⟩
    exact ⟨afterId, hId, hIndex⟩
  · rintro ⟨afterId, hId, hIndex⟩
    exact ⟨point.txId, afterId, hId, point.index, stop, hIndex, rfl, rfl⟩

/-- Every outpoint is read from its encoding. -/
theorem OutPoint.inverts_decoder : Inverts decoder encode fun _ : OutPoint => True := by
  intro start point stop
  rw [true_and]
  exact decoder_ok_iff

/-- An outpoint takes 36 bytes. -/
@[simp]
theorem OutPoint.length_encode (point : OutPoint) : point.encode.length = 36 := by
  rw [encode, List.length_append, point.txId.length_toBytes, Bytes.length_ofNatBE]

/-- No outpoint is without bytes. -/
theorem OutPoint.encode_ne_nil (point : OutPoint) : point.encode ≠ [] := by
  have hLength : 0 < point.encode.length := by
    rw [length_encode]
    decide
  exact List.ne_nil_of_length_pos hLength

/-- A well-formed script is read from its length and its encoding. -/
theorem Script.countedDecoder_ok_iff {start stop : Cursor} {script : Script} :
    countedDecoder start = .ok script stop ↔
      script.WellFormed ∧ start.Took (Bytes.counted script.encode) stop := by
  unfold countedDecoder
  simp only [bind_ok_iff, countedBytes_ok_iff, ofExcept_ok_iff, ofBytes_eq_ok_iff]
  constructor
  · rintro ⟨_, _, ⟨hLength, hTook⟩, ⟨hAll, rfl⟩, rfl⟩
    exact ⟨⟨hAll, hLength⟩, hTook⟩
  · rintro ⟨⟨hAll, hLength⟩, hTook⟩
    exact ⟨script.encode, stop, ⟨hLength, hTook⟩, ⟨hAll, rfl⟩, rfl⟩

/-- An input whose script is well-formed is read from its encoding. -/
theorem TxIn.inverts_decoder :
    Inverts decoder encode fun input : TxIn => input.script.WellFormed := by
  intro start input stop
  unfold decoder encode
  simp only [bind_ok_iff, OutPoint.decoder_ok_iff, Script.countedDecoder_ok_iff, word32_ok_iff,
    pure_ok_iff, Cursor.took_append_iff]
  constructor
  · rintro ⟨point, afterPoint, hPoint, script, afterScript, ⟨hWellFormed, hScript⟩, lockRel, _,
      hLock, rfl, rfl⟩
    exact ⟨hWellFormed, afterScript, ⟨afterPoint, hPoint, hScript⟩, hLock⟩
  · rintro ⟨hWellFormed, afterScript, ⟨afterPoint, hPoint, hScript⟩, hLock⟩
    exact ⟨input.point, afterPoint, hPoint, input.script, afterScript, ⟨hWellFormed, hScript⟩,
      input.lockRel, stop, hLock, rfl, rfl⟩

/-- An output whose script is well-formed is read from its encoding. -/
theorem TxOut.inverts_decoder :
    Inverts decoder encode fun output : TxOut => output.script.WellFormed := by
  intro start output stop
  unfold decoder encode
  simp only [bind_ok_iff, word64_ok_iff, Script.countedDecoder_ok_iff, pure_ok_iff,
    Cursor.took_append_iff]
  constructor
  · rintro ⟨value, afterValue, hValue, script, _, ⟨hWellFormed, hScript⟩, rfl, rfl⟩
    exact ⟨hWellFormed, afterValue, hValue, hScript⟩
  · rintro ⟨hWellFormed, afterValue, hValue, hScript⟩
    exact ⟨output.value, afterValue, hValue, output.script, stop, ⟨hWellFormed, hScript⟩, rfl, rfl⟩

/-- An output has at least the bytes of its value. -/
theorem TxOut.encode_ne_nil (output : TxOut) : output.encode ≠ [] := by
  have hLength : 0 < output.encode.length := by
    rw [encode, List.length_append, Bytes.length_ofNatBE]
    omega
  exact List.ne_nil_of_length_pos hLength

namespace Tx

/-- The scripts of a transaction are well-formed, and its counts are numbers of 64 bits. -/
structure WellFormed (tx : Tx) : Prop where
  /-- The inputs can stand after their number. -/
  inputs_length_lt : tx.inputs.length < 2 ^ 64
  /-- The scripts of the inputs are well-formed. -/
  inputs : ∀ input ∈ tx.inputs, input.script.WellFormed
  /-- The outputs can stand after their number. -/
  outputs_length_lt : tx.outputs.length < 2 ^ 64
  /-- The scripts of the outputs are well-formed. -/
  outputs : ∀ output ∈ tx.outputs, output.script.WellFormed

instance : DecidablePred WellFormed := fun tx =>
  decidable_of_iff
    ((tx.inputs.length < 2 ^ 64 ∧ ∀ input ∈ tx.inputs, input.script.WellFormed) ∧
      tx.outputs.length < 2 ^ 64 ∧ ∀ output ∈ tx.outputs, output.script.WellFormed)
    ⟨fun h => ⟨h.1.1, h.1.2, h.2.1, h.2.2⟩,
      fun h => ⟨⟨h.inputs_length_lt, h.inputs⟩, h.outputs_length_lt, h.outputs⟩⟩

/-- A transaction with well-formed scripts is read from its encoding. -/
theorem inverts_decoder : Inverts decoder encode WellFormed := by
  intro start tx stop
  -- Bracketed to the right, the parts are taken one at a time.
  have hFirst : tx.encode = [tx.version] ++ (Bytes.countedList TxIn.encode tx.inputs
      ++ (Bytes.countedList TxOut.encode tx.outputs ++ Bytes.ofNatBE 4 tx.lockAbs.toNat)) := by
    simp [encode]
  rw [hFirst]
  unfold decoder
  simp only [bind_ok_iff, byte_ok_iff, counted_ok_iff TxIn.inverts_decoder,
    counted_ok_iff TxOut.inverts_decoder, word32_ok_iff, pure_ok_iff, Cursor.took_append_iff]
  constructor
  · rintro ⟨version, afterVersion, hVersion, inputs, afterInputs, ⟨⟨hLength, hWellFormed⟩, hInputs⟩,
      outputs, afterOutputs, ⟨⟨hLength', hWellFormed'⟩, hOutputs⟩, lockAbs, _, hLock, rfl, rfl⟩
    exact ⟨⟨hLength, hWellFormed, hLength', hWellFormed'⟩, afterVersion, hVersion, afterInputs,
      hInputs, afterOutputs, hOutputs, hLock⟩
  · rintro ⟨⟨hLength, hWellFormed, hLength', hWellFormed'⟩, afterVersion, hVersion, afterInputs,
      hInputs, afterOutputs, hOutputs, hLock⟩
    exact ⟨tx.version, afterVersion, hVersion, tx.inputs, afterInputs,
      ⟨⟨hLength, hWellFormed⟩, hInputs⟩, tx.outputs, afterOutputs,
      ⟨⟨hLength', hWellFormed'⟩, hOutputs⟩, tx.lockAbs, stop, hLock, rfl, rfl⟩

/-- The well-formed transactions are those that some byte string writes. -/
theorem wellFormed_iff_exists_decode {tx : Tx} :
    tx.WellFormed ↔ ∃ bytes, Wire.decode bytes = .ok tx := by
  have hDecode : ∀ bytes, Wire.decode bytes = .ok tx ↔ tx.WellFormed ∧ bytes = tx.encode :=
    fun _ => decodeAll_eq_ok_iff inverts_decoder
  simp only [hDecode, exists_and_left, exists_eq, and_true]

end Tx

end UtxoChain
