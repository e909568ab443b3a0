import UtxoChain.Proofs.Chain.Reading
import UtxoChain.Proofs.Ledger.Conservation

/-!
# Decoding undoes encoding

Each format of the library is read back from the bytes that it writes: chunks, inputs, outputs,
transactions, headers and blocks in front of any further bytes, and scripts as a whole, since a script
takes up all of the input that it is given. What is asked of a value is that the opcodes of its
scripts suit their payloads, as they do however a chunk is made, and that its lengths are numbers of
64 bits.
-/

namespace UtxoChain

/-- Each value that is valid is read back from its bytes, wherever in a longer string they stand, and
exactly what follows them is left. -/
def Wire.ReadsBack (α : Type) [Wire α] (valid : α → Prop) : Prop :=
  ∀ value : α, valid value → ∀ (pos : Nat) (rest : Bytes),
    Wire.decoder ⟨pos, Wire.encode value ++ rest⟩ =
      .ok value ⟨pos + (Wire.encode value).length, rest⟩

/-- A format whose decoder inverts its encoder is read back. -/
theorem Wire.readsBack_of_inverts {α : Type} [Wire α] {valid : α → Prop}
    (h : Decoder.Inverts (Wire.decoder (α := α)) Wire.encode valid) : ReadsBack α valid := by
  intro value hValid pos rest
  exact h.decoder_append hValid pos rest

/-- Well-formed chunks, inputs, outputs, transactions, headers and blocks are read back from their bytes
in front of any others, well-formed scripts are read back from their bytes as a whole, and every chunk
that is made is well-formed. -/
theorem Wire.readsBack_of_wellFormed :
    (ReadsBack Chunk Chunk.WellFormed ∧
      ReadsBack TxIn (fun input => input.script.WellFormed) ∧
      ReadsBack TxOut (fun output => output.script.WellFormed) ∧
      ReadsBack Tx Tx.WellFormed ∧
      ReadsBack BlockHeader (fun _ => True) ∧
      ReadsBack Block Block.WellFormed) ∧
    (∀ script : Script, (∀ chunk ∈ script.chunks, chunk.WellFormed) →
      Script.ofBytes script.encode = .ok script) ∧
    ∀ chunk : Chunk, chunk.Made → chunk.WellFormed := by
  refine ⟨⟨?_, ?_, ?_, ?_, ?_, ?_⟩, ?_, ?_⟩
  · exact readsBack_of_inverts Chunk.inverts_decoder
  · exact readsBack_of_inverts TxIn.inverts_decoder
  · exact readsBack_of_inverts TxOut.inverts_decoder
  · exact readsBack_of_inverts Tx.inverts_decoder
  · exact readsBack_of_inverts BlockHeader.inverts_decoder
  · exact readsBack_of_inverts Block.inverts_decoder
  · intro script hChunks
    exact Script.ofBytes_eq_ok_iff.2 ⟨hChunks, rfl⟩
  · intro chunk hMade
    exact hMade.wellFormed

namespace Sample

/-- A push of 256 bytes, which needs a count of two bytes. -/
def widePush : Chunk := ⟨Opcode.pushData2.toByte, some (List.replicate 256 7)⟩

/-- The block of two transactions is read back in the middle of other bytes, and a script with a wide
push is read back as a whole. -/
theorem decoder_block :
    block.WellFormed ∧
      Wire.decoder ⟨5, Wire.encode block ++ [0xff, 0x00]⟩ =
        .ok block ⟨5 + (Wire.encode block).length, [0xff, 0x00]⟩ ∧
      widePush.WellFormed ∧ Script.ofBytes (Script.encode ⟨[widePush]⟩) = .ok ⟨[widePush]⟩ := by
  have hBlock : block.WellFormed := by decide +kernel
  have hPush : widePush.WellFormed := by decide +kernel
  obtain ⟨⟨-, -, -, -, -, hReadsBack⟩, hScripts, -⟩ := Wire.readsBack_of_wellFormed
  refine ⟨hBlock, hReadsBack block hBlock 5 [0xff, 0x00], hPush, ?_⟩
  exact hScripts ⟨[widePush]⟩ (List.forall_mem_singleton.2 hPush)

end Sample

end UtxoChain
