import UtxoChain.Proofs.Chain.HeaderRun
import UtxoChain.Proofs.Ledger.Conservation
import UtxoChain.Proofs.Machine.Pushing
import UtxoChain.Proofs.Rules.Block
import UtxoChain.Proofs.Tx.Reading

/-!
# Chunks of numbers and the index of a block

A number is pushed by an opcode of its own or by its shortest form as a payload. Whichever is chosen, the
chunk has the shortest form as its item (`Chunk.item?_of_ofNumber`), so it tells the number. A mint
transaction starts with the chunk of the index of its block; so it tells that index, and no two blocks
of different indices share one.
-/

namespace UtxoChain

open Machine

/-! ## Chunks of numbers -/

/-- The opcode that is chosen for a small number pushes that number. -/
theorem Opcode.constant?_of_ofSmallInt? {n : Nat} {op : Opcode} (h : ofSmallInt? n = some op) :
    op.constant? = some (n : Int) := by
  have hNumber : (op.constant? == some (n : Int)) = true :=
    forall_of_ofSmallInt? (p := fun n op => op.constant? == some (n : Int)) (by decide) h
  exact beq_iff_eq.1 hNumber

namespace Chunk

/-- The chunk of an opcode that pushes a number has the shortest form of that number. -/
theorem item?_ofOpcode {op : Opcode} {number : Int} (h : op.constant? = some number) :
    (ofOpcode op).item? = some (ScriptNumber.encode number) := by
  have hOp : (ofOpcode op).op? = some op := Opcode.ofByte?_toByte op
  change ((ofOpcode op).op?.bind Opcode.constant?).map ScriptNumber.encode = _
  rw [hOp, Option.bind_some, h, Option.map_some]

/-- A number has an opcode of its own, or its shortest form is pushed. -/
theorem ofNumber_cases (number : Int) :
    (∃ op, Opcode.constant? op = some number ∧ ofNumber number = .ok (ofOpcode op)) ∨
      ofNumber number = ofData (ScriptNumber.encode number) := by
  unfold ofNumber
  by_cases hNegative : number = -1
  · rw [if_pos hNegative, hNegative]
    exact .inl ⟨.negate1, rfl, rfl⟩
  · rw [if_neg hNegative]
    by_cases hSign : 0 ≤ number
    · rw [if_pos hSign]
      cases hSmall : Opcode.ofSmallInt? number.toNat with
      | none => exact .inr rfl
      | some op =>
        have hConstant := Opcode.constant?_of_ofSmallInt? hSmall
        rw [Int.toNat_of_nonneg hSign] at hConstant
        exact .inl ⟨op, hConstant, rfl⟩
    · rw [if_neg hSign]
      exact .inr rfl

/-- The chunk that is chosen for a number has the shortest form of that number. -/
theorem item?_of_ofNumber {number : Int} {chunk : Chunk} (h : ofNumber number = .ok chunk) :
    chunk.item? = some (ScriptNumber.encode number) := by
  rcases ofNumber_cases number with ⟨op, hConstant, hChunk⟩ | hPushed
  · rw [← Except.ok.inj (hChunk.symm.trans h)]
    exact item?_ofOpcode hConstant
  · rw [item?, payload_of_ofData (hPushed.symm.trans h)]

/-- A chunk can be chosen for every number whose form is not too long for a payload. -/
theorem exists_ofNumber_of_length_le {number : Int}
    (h : (ScriptNumber.encode number).length ≤ 0xffffffff) :
    ∃ chunk, ofNumber number = .ok chunk := by
  rcases ofNumber_cases number with ⟨op, -, hChunk⟩ | hPushed
  · exact ⟨_, hChunk⟩
  · rw [hPushed]
    exact exists_ofData h

/-- Every word is pushed by some chunk: its shortest form has at most nine bytes. -/
theorem exists_ofNumber (word : UInt64) : ∃ chunk, ofNumber word.toNat = .ok chunk := by
  have hWidth := ScriptNumber.width_le_nine word.toNat_lt
  apply exists_ofNumber_of_length_le
  rw [ScriptNumber.length_encode_natCast]
  omega

/-- A chunk is chosen for one number only. -/
theorem eq_of_ofNumber {number other : Int} {chunk : Chunk} (h : ofNumber number = .ok chunk)
    (hOther : ofNumber other = .ok chunk) : number = other := by
  have hForm : ScriptNumber.encode number = ScriptNumber.encode other :=
    Option.some.inj ((item?_of_ofNumber h).symm.trans (item?_of_ofNumber hOther))
  rw [← ScriptNumber.value_encode number, hForm, ScriptNumber.value_encode]

end Chunk

/-! ## Scripts that start with an index -/

namespace Script

/-- A script starts with an index if its first chunk is the one that is chosen for it. -/
theorem startsWithBlockIndex_iff {script : Script} {blockIndex : UInt64} :
    script.startsWithBlockIndex blockIndex = true ↔
      ∃ chunk, Chunk.ofNumber blockIndex.toNat = .ok chunk ∧ script.chunks.head? = some chunk := by
  obtain ⟨chunk, hChunk⟩ := Chunk.exists_ofNumber blockIndex
  unfold startsWithBlockIndex
  rw [hChunk]
  simp

/-- A script starts with one index at most. -/
theorem eq_of_startsWithBlockIndex {script : Script} {one other : UInt64}
    (hOne : script.startsWithBlockIndex one = true)
    (hOther : script.startsWithBlockIndex other = true) : one = other := by
  obtain ⟨chunk, hChunk, hHead⟩ := startsWithBlockIndex_iff.1 hOne
  obtain ⟨second, hSecond, hSecondHead⟩ := startsWithBlockIndex_iff.1 hOther
  obtain rfl : chunk = second := Option.some.inj (hHead.symm.trans hSecondHead)
  exact UInt64.toNat_inj.1 (Int.ofNat_inj.1 (Chunk.eq_of_ofNumber hChunk hSecond))

/-- The input of a mint transaction starts with the index that it was made for. -/
theorem startsWithBlockIndex_of_mintInput {blockIndex : UInt64} {extra : Bytes} {script : Script}
    (h : mintInput blockIndex extra = .ok script) :
    script.startsWithBlockIndex blockIndex = true := by
  obtain ⟨index, others, hIndex, rfl, -⟩ := exists_of_mintInput h
  exact startsWithBlockIndex_iff.2 ⟨index, hIndex, rfl⟩

/-- Every index has a mint input, with any further data whose length is a number of 32 bits. -/
theorem exists_mintInput (blockIndex : UInt64) (extra : Bytes) (h : extra.length ≤ 0xffffffff) :
    ∃ script, mintInput blockIndex extra = .ok script := by
  obtain ⟨index, hIndex⟩ := Chunk.exists_ofNumber blockIndex
  obtain ⟨data, hData⟩ := Chunk.exists_ofData h
  unfold mintInput
  rw [hIndex, hData]
  by_cases hEmpty : extra.isEmpty = true
  · exact ⟨_, if_pos hEmpty⟩
  · exact ⟨_, if_neg hEmpty⟩

end Script

/-! ## Blocks -/

/-- An accepted block starts with a transaction that starts with the index of the block. -/
theorem Block.exists_mint_of_verify {rules : Rules} {lookup : OutputLookup} {block : Block}
    {prev adjustment : Option BlockHeader}
    (h : block.verify rules lookup prev adjustment = .ok ()) :
    ∃ mint input, block.txs.head? = some mint ∧ mint.inputs.head? = some input ∧
      input.script.startsWithBlockIndex block.header.index = true := by
  obtain ⟨-, hFrame, -⟩ := (verify_eq_ok_iff _ _ _ _ _).1 h
  obtain ⟨mint, others, hTxs⟩ := List.exists_cons_of_ne_nil hFrame.txs_ne_nil
  have hMint : block.txs.head? = some mint := by
    rw [hTxs, List.head?_cons]
  have hPushes := hFrame.pushes_index mint hMint
  cases hInput : mint.inputs.head? with
  | none =>
    rw [hInput] at hPushes
    exact absurd hPushes nofun
  | some input =>
    rw [hInput] at hPushes
    exact ⟨mint, input, hMint, hInput, hPushes⟩

/-- The chunk of a number means the number, and the index of a block binds its mint transaction. A
chunk that is chosen for a number of at most 4096 bytes pushes its shortest form, and no other number
has that chunk. So a mint input starts with the index that it was made for and with no other, also when
it has been written and read again; no script starts with two indices; and the first transactions of
accepted blocks of different indices have different bytes, if their scripts are well-formed. -/
theorem blockIndex_binds_mint :
    (∀ number : Int, (ScriptNumber.encode number).length ≤ 4096 →
      ∃ chunk, Chunk.ofNumber number = .ok chunk ∧ ∀ (env : Env) (state : State),
        state.executing = true → state.stack.length + 1 + state.alt.length ≤ 1000 →
        state.opCount < env.maxOps →
          stepChunk env chunk state = .ok .next { state with
            stack := ScriptNumber.encode number :: state.stack
            opCount := state.opCount + if chunk.payload.isNone then 1 else 0 }) ∧
    (∀ (number other : Int) (chunk : Chunk), Chunk.ofNumber number = .ok chunk →
      Chunk.ofNumber other = .ok chunk → number = other) ∧
    (∀ (index : UInt64) (extra : Bytes), extra.length ≤ 0xffffffff →
      ∃ script, Script.mintInput index extra = .ok script) ∧
    (∀ (index : UInt64) (extra : Bytes) (script : Script),
      Script.mintInput index extra = .ok script →
        (∀ other, script.startsWithBlockIndex other = true ↔ index = other) ∧
        ∃ read, Script.ofBytes script.encode = .ok read ∧
          ∀ other, read.startsWithBlockIndex other = true ↔ index = other) ∧
    (∀ (script : Script) (one other : UInt64), script.startsWithBlockIndex one = true →
      script.startsWithBlockIndex other = true → one = other) ∧
    (∀ (rules otherRules : Rules) (lookup otherLookup : OutputLookup) (block other : Block)
      (prev adjustment otherPrev otherAdjustment : Option BlockHeader),
      block.verify rules lookup prev adjustment = .ok () →
      other.verify otherRules otherLookup otherPrev otherAdjustment = .ok () →
      block.header.index ≠ other.header.index →
        ∃ mint otherMint, block.txs.head? = some mint ∧ other.txs.head? = some otherMint ∧
          (mint.WellFormed → otherMint.WellFormed → mint.encode ≠ otherMint.encode)) := by
  refine ⟨fun number hShort => ?_, fun _ _ _ => Chunk.eq_of_ofNumber,
    Script.exists_mintInput, fun index extra script hScript => ?_,
    fun script one other => Script.eq_of_startsWithBlockIndex,
    fun rules otherRules lookup otherLookup block other prev adjustment otherPrev otherAdjustment
      hBlock hOther hIndex => ?_⟩
  · obtain ⟨chunk, hChunk⟩ :=
      Chunk.exists_ofNumber_of_length_le (Nat.le_trans hShort (by decide))
    refine ⟨chunk, hChunk, fun env state hExecuting hRoom hCount => ?_⟩
    have hCost : state.opCount + cost chunk ≤ env.maxOps := by
      unfold cost
      split_ifs <;> omega
    exact (stepChunk_item_ok_iff (Chunk.item?_of_ofNumber hChunk) hExecuting hCount.le).2
      ⟨rfl, hShort, hRoom, hCost, rfl⟩
  · have hStarts : ∀ other, script.startsWithBlockIndex other = true ↔ index = other := by
      have hOwn := Script.startsWithBlockIndex_of_mintInput hScript
      intro other
      constructor
      · exact Script.eq_of_startsWithBlockIndex hOwn
      · rintro rfl
        exact hOwn
    have hRead : Script.ofBytes script.encode = .ok script :=
      Script.ofBytes_eq_ok_iff.2 ⟨Script.wellFormed_of_mintInput hScript, rfl⟩
    exact ⟨hStarts, script, hRead, hStarts⟩
  · obtain ⟨mint, input, hMint, hInput, hStarts⟩ := Block.exists_mint_of_verify hBlock
    obtain ⟨otherMint, otherInput, hOtherMint, hOtherInput, hOtherStarts⟩ :=
      Block.exists_mint_of_verify hOther
    refine ⟨mint, otherMint, hMint, hOtherMint, fun hWellFormed hOtherWellFormed hBytes => hIndex ?_⟩
    -- The bytes tell the transaction, so the two would start with one input and both its indices.
    obtain rfl : mint = otherMint :=
      Tx.inverts_decoder.eq_of_encode_eq hWellFormed hOtherWellFormed hBytes
    obtain rfl : input = otherInput := Option.some.inj (hInput.symm.trans hOtherInput)
    exact Script.eq_of_startsWithBlockIndex hStarts hOtherStarts

namespace Sample

/-- The transaction that mints in a block of index 1. -/
def followingMint : Tx := Tx.mint ⟨[.ofOpcode .op1]⟩ [] [⟨50, lock⟩] 0

/-- The block after the first header of a run. -/
def followingBlock : Block where
  header := ⟨BlockHeader.proposedVersion, firstHeader.id, merkleRootOf [followingMint], 112,
    firstHeader.target, FixedBytes.zero, 1⟩
  txs := [followingMint]

/-- The accepted blocks of index 0 and 1 mint by different bytes, and the script that starts the second
one does not start with index 0. -/
theorem encode_mint_ne_encode_followingMint :
    followingBlock.verify rules known.get? (some firstHeader) none = .ok () ∧
      mint.encode ≠ followingMint.encode ∧
      Script.startsWithBlockIndex ⟨[.ofOpcode .op1]⟩ 0 ≠ true := by
  obtain ⟨-, -, -, hMintInput, -, hBlocks⟩ := blockIndex_binds_mint
  have hVerify : followingBlock.verify rules known.get? (some firstHeader) none = .ok () := by
    decide +kernel
  obtain ⟨first, second, hFirst, hSecond, hDiffer⟩ :=
    hBlocks rules rules known.get? known.get? block followingBlock none none (some firstHeader) none
      verify_block hVerify (by decide)
  obtain rfl : mint = first := Option.some.inj hFirst
  obtain rfl : followingMint = second := Option.some.inj hSecond
  refine ⟨hVerify, hDiffer (by decide +kernel) (by decide +kernel), fun hStarts => ?_⟩
  exact absurd (((hMintInput 1 [] ⟨[.ofOpcode .op1]⟩ rfl).1 0).1 hStarts) (by decide)

end Sample

end UtxoChain
