import UtxoChain.Proofs.Script.Reading
import UtxoChain.Script.Template

/-!
# Admissible scripts

Some rules need less of a script than that every opcode suits its payload: it is enough that a payload
stands after an opcode that pushes one. Every way of making a chunk sees to that, and so it holds of
every script that is read from bytes or from text and of every script that is made from a template.
-/

namespace UtxoChain

namespace Chunk

/-- The opcode of a well-formed chunk with a payload pushes one. -/
theorem isPushData_of_wellFormed {chunk : Chunk} (h : chunk.WellFormed)
    (hPush : chunk.isPush = true) : Opcode.isPushData chunk.opcode = true := by
  obtain ⟨opcode, payload⟩ := chunk
  cases payload with
  | none => exact absurd hPush (by simp [isPush])
  | some data => exact (wellFormed_some_iff.1 h).1

/-- A chunk that is made of an opcode has no payload. -/
theorem isPush_ofOpcode (op : Opcode) : (ofOpcode op).isPush = false := rfl

end Chunk

namespace Script

/-- A payload stands only after an opcode that pushes one, as in every script that is read or made. -/
def Admissible (script : Script) : Prop :=
  ∀ chunk ∈ script.chunks, chunk.isPush = true → Opcode.isPushData chunk.opcode = true

instance : DecidablePred Admissible := fun script =>
  inferInstanceAs (Decidable (∀ chunk ∈ script.chunks,
    chunk.isPush = true → Opcode.isPushData chunk.opcode = true))

/-- In an admissible script an opcode that pushes no payload has none. -/
theorem Admissible.payload_eq_none {script : Script} (h : script.Admissible) {chunk : Chunk}
    (hChunk : chunk ∈ script.chunks) {op : Opcode} (hOp : chunk.op? = some op)
    (hPlain : Opcode.isPushData op.toByte = false) : chunk.payload = none := by
  have hByte : op.toByte = chunk.opcode := Opcode.toByte_of_ofByte? hOp
  cases hPayload : chunk.payload with
  | none => rfl
  | some data =>
    have hPush := h chunk hChunk (by simp [Chunk.isPush, hPayload])
    rw [← hByte, hPlain] at hPush
    exact absurd hPush (by decide)

/-- In an admissible script an opcode that pushes no payload is the chunk of that opcode. -/
theorem Admissible.eq_ofOpcode {script : Script} (h : script.Admissible) {chunk : Chunk}
    (hChunk : chunk ∈ script.chunks) {op : Opcode} (hOp : chunk.op? = some op)
    (hPlain : Opcode.isPushData op.toByte = false) : chunk = .ofOpcode op := by
  have hPayload := h.payload_eq_none hChunk hOp hPlain
  have hByte : op.toByte = chunk.opcode := Opcode.toByte_of_ofByte? hOp
  obtain ⟨opcode, payload⟩ := chunk
  rw [Chunk.ofOpcode, Chunk.mk.injEq]
  exact ⟨hByte.symm, hPayload⟩

/-- Chunks of an admissible script whose opcodes push no payload are the chunks of those opcodes. -/
theorem Admissible.eq_map_ofOpcode {script : Script} (h : script.Admissible) {chunks : List Chunk}
    {ops : List Opcode} (hChunks : chunks ⊆ script.chunks)
    (hOps : chunks.map Chunk.op? = ops.map some)
    (hPlain : ∀ op ∈ ops, Opcode.isPushData op.toByte = false) : chunks = ops.map .ofOpcode := by
  induction chunks generalizing ops with
  | nil =>
    obtain rfl : ops = [] := List.map_eq_nil_iff.1 hOps.symm
    rfl
  | cons chunk chunks ih =>
    cases ops with
    | nil => exact absurd hOps (by simp)
    | cons op ops =>
      obtain ⟨hOp, hOps⟩ := List.cons.inj hOps
      obtain ⟨hChunk, hChunks⟩ := List.cons_subset.1 hChunks
      obtain ⟨hPlainOp, hPlain⟩ := List.forall_mem_cons.1 hPlain
      rw [h.eq_ofOpcode hChunk hOp hPlainOp, ih hChunks hOps hPlain, List.map_cons]

/-- A script of well-formed chunks is admissible. -/
theorem admissible_of_wellFormed {script : Script}
    (h : ∀ chunk ∈ script.chunks, chunk.WellFormed) : script.Admissible :=
  fun chunk hChunk hPush => Chunk.isPushData_of_wellFormed (h chunk hChunk) hPush

/-- A script that is read from bytes is admissible. -/
theorem admissible_of_ofBytes {bytes : Bytes} {script : Script} (h : ofBytes bytes = .ok script) :
    script.Admissible := by
  obtain ⟨hChunks, -⟩ := ofBytes_eq_ok_iff.1 h
  exact admissible_of_wellFormed hChunks

/-- A script that is read from text is admissible. -/
theorem admissible_of_ofText {text : String} {script : Script} (h : ofText text = .ok script) :
    script.Admissible := by
  obtain ⟨chunks, hChunks, hScript⟩ := bind_eq_ok_iff.1 h
  obtain rfl := Except.ok.inj hScript
  intro chunk hChunk hPush
  obtain ⟨word, -, hWord⟩ := exists_of_mem_mapM hChunks hChunk
  exact Chunk.isPushData_of_wellFormed (Chunk.wellFormed_of_ofText hWord) hPush

/-! ## Templates -/

/-- The opcode of the chunk that pushes a hash pushes a payload. -/
theorem isPushData_pushHash (hash : Hash256) :
    Opcode.isPushData (pushHash hash).opcode = true := rfl

/-- The output that is locked to the hash of a key is admissible. -/
theorem admissible_pubKeyHashOutput (hash : Hash256) : (pubKeyHashOutput hash).Admissible := by
  simp [Admissible, pubKeyHashOutput, Chunk.isPush_ofOpcode, isPushData_pushHash]

/-- The script that unlocks an output consists of two pushes, of the signature and of the key. -/
theorem exists_of_pubKeyHashInput {signature key : Bytes} {script : Script}
    (h : pubKeyHashInput signature key = .ok script) :
    ∃ first second, script = ⟨[first, second]⟩ ∧ first.payload = some signature ∧
      second.payload = some key := by
  obtain ⟨first, hFirst, h⟩ := bind_eq_ok_iff.1 h
  obtain ⟨second, hSecond, hScript⟩ := bind_eq_ok_iff.1 h
  exact ⟨first, second, (Except.ok.inj hScript).symm, Chunk.payload_of_ofData hFirst,
    Chunk.payload_of_ofData hSecond⟩

/-- The script that unlocks an output only pushes. -/
theorem isPushOnly_of_pubKeyHashInput {signature key : Bytes} {script : Script}
    (h : pubKeyHashInput signature key = .ok script) : script.isPushOnly = true := by
  obtain ⟨first, second, rfl, hFirst, hSecond⟩ := exists_of_pubKeyHashInput h
  simp [isPushOnly, Chunk.isPush, hFirst, hSecond]

/-- The input that unlocks such an output is admissible. -/
theorem admissible_of_pubKeyHashInput {signature key : Bytes} {script : Script}
    (h : pubKeyHashInput signature key = .ok script) : script.Admissible := by
  obtain ⟨one, hOne, h⟩ := bind_eq_ok_iff.1 h
  obtain ⟨other, hOther, h⟩ := bind_eq_ok_iff.1 h
  rw [← Except.ok.inj h]
  refine admissible_of_wellFormed (List.forall_mem_cons.2 ⟨?_, List.forall_mem_singleton.2 ?_⟩)
  · exact Chunk.wellFormed_of_ofData hOne
  · exact Chunk.wellFormed_of_ofData hOther

/-- The output that expires is admissible. -/
theorem admissible_of_expirableOutput {hash : Hash256} {lockRel : UInt32} {script : Script}
    (h : expirableOutput hash lockRel = .ok script) : script.Admissible := by
  obtain ⟨lock, hLock, h⟩ := bind_eq_ok_iff.1 h
  have hPushLock := Chunk.isPushData_of_wellFormed (Chunk.wellFormed_of_ofNumber hLock)
  rw [← Except.ok.inj h]
  simpa [Admissible, Chunk.isPush_ofOpcode, isPushData_pushHash] using hPushLock

/-- The input of a mint transaction consists of the chunk of the index, and perhaps of one for the
further data. -/
theorem exists_of_mintInput {blockIndex : UInt64} {extra : Bytes} {script : Script}
    (h : mintInput blockIndex extra = .ok script) :
    ∃ index others, Chunk.ofNumber blockIndex.toNat = .ok index ∧ script = ⟨index :: others⟩ ∧
      ∀ chunk ∈ others, Chunk.ofData extra = .ok chunk := by
  obtain ⟨index, hIndex, h⟩ := bind_eq_ok_iff.1 h
  by_cases hEmpty : extra.isEmpty = true
  · rw [if_pos hEmpty] at h
    exact ⟨index, [], hIndex, (Except.ok.inj h).symm, fun _ hMem => absurd hMem List.not_mem_nil⟩
  · rw [if_neg hEmpty] at h
    obtain ⟨data, hData, h⟩ := bind_eq_ok_iff.1 h
    exact ⟨index, [data], hIndex, (Except.ok.inj h).symm, List.forall_mem_singleton.2 hData⟩

/-- The input of a mint transaction is of well-formed chunks. -/
theorem wellFormed_of_mintInput {blockIndex : UInt64} {extra : Bytes} {script : Script}
    (h : mintInput blockIndex extra = .ok script) : ∀ chunk ∈ script.chunks, chunk.WellFormed := by
  obtain ⟨index, others, hIndex, rfl, hOthers⟩ := exists_of_mintInput h
  refine List.forall_mem_cons.2 ⟨Chunk.wellFormed_of_ofNumber hIndex, fun chunk hChunk => ?_⟩
  exact Chunk.wellFormed_of_ofData (hOthers chunk hChunk)

/-- The input of a mint transaction is admissible. -/
theorem admissible_of_mintInput {blockIndex : UInt64} {extra : Bytes} {script : Script}
    (h : mintInput blockIndex extra = .ok script) : script.Admissible :=
  admissible_of_wellFormed (wellFormed_of_mintInput h)

end Script

end UtxoChain
