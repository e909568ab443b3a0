import UtxoChain.Proofs.Chain.Reading
import UtxoChain.Proofs.Ledger.Conservation

/-!
# Encodings are canonical

Whatever bytes stand at a cursor, those that are taken for a value are the ones that the value writes.
So no value is read from two byte strings, and an id that is computed from a value that was read is
the hash of the very bytes that it was read from. This holds of every accepted push and count, at
every level of a value, because a push has one length form for its opcode and a count is read only
in its shortest form.
-/

namespace UtxoChain

open Decoder

namespace Wire

variable {α : Type} [Wire α] {valid : α → Prop}

/-- A format in which only valid values are read, and each from one byte string only. -/
structure Canonical (α : Type) [Wire α] (valid : α → Prop) : Prop where
  /-- A value that is read is valid and writes the bytes that were taken for it. -/
  taken : ∀ (pos : Nat) (bytes : Bytes) (value : α) (stop : Cursor),
    Wire.decoder ⟨pos, bytes⟩ = .ok value stop →
      valid value ∧ ∃ count ≤ bytes.length,
        Wire.encode value = bytes.take count ∧ stop = ⟨pos + count, bytes.drop count⟩
  /-- Byte strings that are the same value as a whole are the same. -/
  unique : ∀ (one other : Bytes) (value : α),
    Wire.decode one = .ok value → Wire.decode other = .ok value → one = other

/-- A whole byte string that is a value is what the value writes, if reading takes no other bytes. -/
theorem encode_of_decode
    (h : ∀ start value stop, Wire.decoder start = .ok value stop →
      start.Took (Wire.encode (α := α) value) stop)
    {bytes : Bytes} {value : α} (hDecode : Wire.decode bytes = .ok value) :
    Wire.encode value = bytes := by
  obtain ⟨stop, hRead, hEnd⟩ := decodeAll_eq_ok_iff_exists.1 hDecode
  exact ((h _ _ _ hRead).eq_of_rest_eq_nil hEnd).symm

/-- A format is canonical if reading gives valid values and takes the bytes that they write. -/
theorem canonical_of_took
    (h : ∀ start value stop, Wire.decoder start = .ok value stop →
      valid value ∧ start.Took (Wire.encode value) stop) : Canonical α valid := by
  refine ⟨?_, ?_⟩
  · intro pos bytes value stop hRead
    obtain ⟨hValid, ⟨hRest, hPos⟩⟩ := h _ _ _ hRead
    change bytes = Wire.encode value ++ stop.rest at hRest
    change stop.pos = pos + (Wire.encode value).length at hPos
    refine ⟨hValid, (Wire.encode value).length, ?_, ?_, ?_⟩
    · rw [hRest, List.length_append]
      exact Nat.le_add_right _ _
    · rw [hRest, List.take_left]
    · rw [hRest, List.drop_left, ← hPos]
  · intro one other value hOne hOther
    have hTook := fun start value stop hRead => (h start value stop hRead).2
    rw [← encode_of_decode hTook hOne, ← encode_of_decode hTook hOther]

/-- A format whose decoder inverts its encoder is canonical. -/
theorem canonical_of_inverts (h : Inverts (Wire.decoder (α := α)) Wire.encode valid) :
    Canonical α valid :=
  canonical_of_took fun start value stop => (h start value stop).1

end Wire

/-- Every header takes 148 bytes. -/
theorem BlockHeader.length_encode (header : BlockHeader) : header.encode.length = 148 := by
  simp [encode, FixedBytes.length_toBytes, Bytes.length_ofNatBE]

/-- The id of a block is the hash of the first 148 of its bytes. -/
theorem Block.id_eq (block : Block) : block.id = doubleHash (block.encode.take 148) := by
  have hHeader : block.encode.take 148 = block.header.encode := by
    rw [encode, ← block.header.length_encode, List.take_left]
  rw [hHeader]
  rfl

/-- The formats of chunks, scripts, inputs, outputs, transactions, headers and blocks are canonical. So
a transaction or a block that is read from a whole byte string is read from what it writes, and its
id is a hash of the bytes of that string. -/
theorem Wire.canonical :
    (Canonical Chunk Chunk.WellFormed ∧
      Canonical Script (fun script => ∀ chunk ∈ script.chunks, chunk.WellFormed) ∧
      Canonical TxIn (fun input => input.script.WellFormed) ∧
      Canonical TxOut (fun output => output.script.WellFormed) ∧
      Canonical Tx Tx.WellFormed ∧
      Canonical BlockHeader (fun _ => True) ∧
      Canonical Block Block.WellFormed) ∧
    (∀ (bytes : Bytes) (tx : Tx), Wire.decode bytes = .ok tx →
      Wire.decode (Wire.encode tx) = .ok tx ∧ tx.id = doubleHash bytes) ∧
    ∀ (bytes : Bytes) (block : Block), Wire.decode bytes = .ok block →
      Wire.decode (Wire.encode block) = .ok block ∧ block.id = doubleHash (bytes.take 148) := by
  refine ⟨⟨?_, ?_, ?_, ?_, ?_, ?_, ?_⟩, ?_, ?_⟩
  · exact canonical_of_inverts Chunk.inverts_decoder
  · refine canonical_of_took fun start script stop hRead => ?_
    obtain ⟨hChunks, hTook, -⟩ := Script.decoder_ok_iff.1 hRead
    exact ⟨hChunks, hTook⟩
  · exact canonical_of_inverts TxIn.inverts_decoder
  · exact canonical_of_inverts TxOut.inverts_decoder
  · exact canonical_of_inverts Tx.inverts_decoder
  · exact canonical_of_inverts BlockHeader.inverts_decoder
  · exact canonical_of_inverts Block.inverts_decoder
  · intro bytes tx hDecode
    obtain ⟨-, rfl⟩ := (decodeAll_eq_ok_iff Tx.inverts_decoder).1 hDecode
    exact ⟨hDecode, rfl⟩
  · intro bytes block hDecode
    obtain ⟨-, rfl⟩ := (decodeAll_eq_ok_iff Block.inverts_decoder).1 hDecode
    exact ⟨hDecode, block.id_eq⟩

namespace Sample

/-- The chunk that pushes one byte after a count of one byte. -/
def push : Chunk := ⟨Opcode.pushData1.toByte, some [7]⟩

/-- A push in the middle of other bytes writes the three bytes that are taken for it, and the block of
two transactions keeps its id. -/
theorem id_of_decode_block :
    (Wire.decoder ⟨5, [0x4c, 1, 7, 0xff]⟩ = .ok push ⟨8, [0xff]⟩ ∧ push.WellFormed ∧
      ∃ count ≤ 4, Wire.encode push = List.take count [0x4c, 1, 7, 0xff] ∧
        (⟨8, [0xff]⟩ : Cursor) = ⟨5 + count, List.drop count [0x4c, 1, 7, 0xff]⟩) ∧
    Wire.decode (Wire.encode block) = .ok block ∧
      block.id = doubleHash ((Wire.encode block).take 148) := by
  have hPush : Wire.decoder ⟨5, [0x4c, 1, 7, 0xff]⟩ = .ok push ⟨8, [0xff]⟩ := by
    refine (Chunk.inverts_decoder _ _ _).2 ⟨by decide +kernel, ?_, ?_⟩ <;> decide +kernel
  have hWellFormed : block.WellFormed := by decide +kernel
  have hBlock : Wire.decode (Wire.encode block) = .ok block :=
    (decodeAll_eq_ok_iff Block.inverts_decoder).2 ⟨hWellFormed, rfl⟩
  obtain ⟨⟨hChunk, -⟩, -, hBlocks⟩ := Wire.canonical
  exact ⟨⟨hPush, hChunk.taken _ _ _ _ hPush⟩, hBlock, (hBlocks _ _ hBlock).2⟩

end Sample

end UtxoChain
