import UtxoChain.Chain.Json
import UtxoChain.Proofs.Bytes.Hex
import UtxoChain.Proofs.Chain.Reading
import UtxoChain.Proofs.Json.Extent
import UtxoChain.Proofs.Json.RoundTrip

/-!
# JSON documents of transactions and blocks

The documents are a second encoding. A value whose scripts are well-formed is read back from the
text of its document: its numbers are below the bounds of their fields, its hashes and scripts are
texts of hexadecimal digits, and a script comes back with the opcodes of its pushes since its text
is that of its bytes. A document that somebody else wrote is read through the same decoder of
scripts, so what it gives is well-formed, and survives the wire format too, provided that its counts
are numbers of 64 bits. For that the text must not be longer than a memory can hold.
-/

namespace UtxoChain

open Json

/-! ## Documents and words -/

namespace Json

/-- Each value that is valid is read back from the text of its document. -/
def ReadsBack {α : Type} (write : α → Json) (read? : Json → Option α) (valid : α → Prop) : Prop :=
  ∀ value : α, valid value → (parse? (compact (write value)) >>= read?) = some value

/-- Each value that is read from a text that fits into memory is valid, and survives the wire
format. -/
def Admits {α : Type} [Wire α] (read? : Json → Option α) (valid : α → Prop) : Prop :=
  ∀ (input : String) (value : α), input.length < 2 ^ 63 → (parse? input >>= read?) = some value →
    valid value ∧ Wire.decode (Wire.encode value) = .ok value

/-- A value with a plain document is read back from its text if it is from its document. -/
theorem readsBack_of_plain {α : Type} {write : α → Json} {read? : Json → Option α}
    {valid : α → Prop} (hPlain : ∀ value, (write value).Plain)
    (h : ∀ value, valid value → read? (write value) = some value) :
    ReadsBack write read? valid := by
  intro value hValid
  rw [parse?_compact (hPlain value)]
  exact h value hValid

/-- A format whose decoder inverts its encoder admits what is read from documents, if documents that
are not too large give valid values. -/
theorem admits_of_inverts {α : Type} [Wire α] {read? : Json → Option α} {valid : α → Prop}
    (hInverts : Decoder.Inverts (Wire.decoder (α := α)) Wire.encode valid)
    (h : ∀ {json : Json} {value : α}, read? json = some value → json.size < 2 ^ 63 → valid value) :
    Admits read? valid := by
  intro input value hInput hRead
  obtain ⟨json, hParse, hRead⟩ := Option.bind_eq_some_iff.1 hRead
  have hValid := h hRead (Nat.lt_of_le_of_lt (size_le_of_parse? hParse) hInput)
  exact ⟨hValid, (Decoder.decodeAll_eq_ok_iff hInverts).2 ⟨hValid, rfl⟩⟩

/-- A list of plain items is plain. -/
theorem plainItems_map {α : Type} {write : α → Json} {items : List α}
    (h : ∀ item ∈ items, (write item).Plain) : PlainItems (items.map write) := by
  induction items with
  | nil => trivial
  | cons item items ih =>
    rw [List.forall_mem_cons] at h
    exact ⟨h.1, ih h.2⟩

/-- Every word of 64 bits is read back. -/
theorem toWord64?_natural (word : UInt64) : (Json.natural word.toNat).toWord64? = some word := by
  rw [toWord64?, toNat?_natural word.toNat_lt, Option.map_some, UInt64.ofNat_toNat]

/-- Every word of 32 bits is read back. -/
theorem toWord32?_natural (word : UInt32) : (Json.natural word.toNat).toWord32? = some word := by
  rw [toWord32?, toNat?_natural word.toNat_lt, Option.map_some, UInt32.ofNat_toNat]

/-- Every byte is read back. -/
theorem toByte?_natural (byte : UInt8) : (Json.natural byte.toNat).toByte? = some byte := by
  rw [toByte?, toNat?_natural byte.toNat_lt, Option.map_some, UInt8.ofNat_toNat]

end Json

/-- Bytes of fixed width are read back from their document. -/
theorem FixedBytes.ofJson?_toJson {width : Nat} (fixed : FixedBytes width) :
    ofJson? fixed.toJson = some fixed := by
  have hBytes : (ofBytes fixed.toBytes : Except Error (FixedBytes width)) = .ok fixed := by
    rw [ofBytes, ofBytes?_eq_some_iff.2 rfl]
  have hHex : (ofHex fixed.toHex : Except Error (FixedBytes width)) = .ok fixed := by
    rw [ofHex, toHex, bytesOfHex_encode]
    exact hBytes
  change (ofHex fixed.toHex).toOption = some fixed
  rw [hHex]
  rfl

namespace Script

/-- A script of well-formed chunks is read back from its document. -/
theorem ofJson?_toJson {script : Script} (h : ∀ chunk ∈ script.chunks, chunk.WellFormed) :
    ofJson? script.toJson = some script := by
  change ((bytesOfHex (Hex.encode script.encode)).toOption >>= fun bytes =>
    (ofBytes bytes).toOption) = some script
  rw [bytesOfHex_encode]
  change (ofBytes script.encode).toOption = some script
  rw [ofBytes_eq_ok_iff.2 ⟨h, rfl⟩]
  rfl

/-- A script that is read from a document is well-formed, if the document is not too large: it takes
one byte for two digits. -/
theorem wellFormed_of_ofJson? {json : Json} {script : Script} (h : ofJson? json = some script)
    (hSize : json.size < 2 ^ 63) : script.WellFormed := by
  obtain ⟨content, hContent, h⟩ := Option.bind_eq_some_iff.1 h
  obtain ⟨bytes, hHex, hBytes⟩ := Option.bind_eq_some_iff.1 h
  rw [toOption_eq_some_iff] at hHex hBytes
  obtain ⟨hChunks, rfl⟩ := ofBytes_eq_ok_iff.1 hBytes
  refine ⟨hChunks, ?_⟩
  have hDigits := Hex.length_of_decode (mapError_eq_ok_iff.1 hHex)
  have hText := Text.length_toUTF8_le content
  have hLength : content.length = json.size := by
    cases json with
    | text found =>
      rw [Option.some.inj hContent]
      rfl
    | _ => exact absurd hContent nofun
  omega

end Script

/-! ## Inputs and outputs -/

namespace TxIn

/-- The document of an input is plain. -/
theorem plain_toJson (input : TxIn) : input.toJson.Plain :=
  ⟨trivial, trivial, trivial, trivial, trivial⟩

/-- An input with well-formed chunks is read back from its document. -/
theorem ofJson?_toJson {input : TxIn} (h : ∀ chunk ∈ input.script.chunks, chunk.WellFormed) :
    ofJson? input.toJson = some input := by
  have hFields : input.toJson.fields? ["input_tx_id", "input_tx_n_out", "script", "lock_rel"] =
      some [some input.point.txId.toJson, some (.natural input.point.index.toNat),
        some input.script.toJson, some (.natural input.lockRel.toNat)] :=
    fields?_object (by decide) rfl
  unfold ofJson?
  rw [hFields]
  simp [FixedBytes.ofJson?_toJson, toWord32?_natural, Script.ofJson?_toJson h]

/-- The script of an input that is read from a document is well-formed, if the document is not too
large. -/
theorem wellFormed_of_ofJson? {json : Json} {input : TxIn} (h : ofJson? json = some input)
    (hSize : json.size < 2 ^ 63) : input.script.WellFormed := by
  obtain ⟨fields, hFields, h⟩ := Option.bind_eq_some_iff.1 h
  split at h
  · rename_i txId index script lockRel
    obtain ⟨_, -, h⟩ := Option.bind_eq_some_iff.1 h
    obtain ⟨_, -, h⟩ := Option.bind_eq_some_iff.1 h
    obtain ⟨read, hScript, h⟩ := Option.bind_eq_some_iff.1 h
    obtain ⟨_, -, h⟩ := Option.bind_eq_some_iff.1 h
    rw [← Option.some.inj h]
    have hField : script.size ≤ json.size := size_le_of_fields? hFields (by simp)
    exact Script.wellFormed_of_ofJson? hScript (Nat.lt_of_le_of_lt hField hSize)
  · exact absurd h nofun

end TxIn

namespace TxOut

/-- The document of an output is plain. -/
theorem plain_toJson (output : TxOut) : output.toJson.Plain :=
  ⟨trivial, trivial, trivial⟩

/-- An output with well-formed chunks is read back from its document. -/
theorem ofJson?_toJson {output : TxOut} (h : ∀ chunk ∈ output.script.chunks, chunk.WellFormed) :
    ofJson? output.toJson = some output := by
  have hFields : output.toJson.fields? ["value", "script"] =
      some [some (.natural output.value.toNat), some output.script.toJson] :=
    fields?_object (by decide) rfl
  unfold ofJson?
  rw [hFields]
  simp [toWord64?_natural, Script.ofJson?_toJson h]

/-- The script of an output that is read from a document is well-formed, if the document is not too
large. -/
theorem wellFormed_of_ofJson? {json : Json} {output : TxOut} (h : ofJson? json = some output)
    (hSize : json.size < 2 ^ 63) : output.script.WellFormed := by
  obtain ⟨fields, hFields, h⟩ := Option.bind_eq_some_iff.1 h
  split at h
  · rename_i value script
    obtain ⟨_, -, h⟩ := Option.bind_eq_some_iff.1 h
    obtain ⟨read, hScript, h⟩ := Option.bind_eq_some_iff.1 h
    rw [← Option.some.inj h]
    have hField : script.size ≤ json.size := size_le_of_fields? hFields (by simp)
    exact Script.wellFormed_of_ofJson? hScript (Nat.lt_of_le_of_lt hField hSize)
  · exact absurd h nofun

end TxOut

/-! ## Transactions -/

namespace Tx

/-- The scripts of the inputs and of the outputs. -/
def scripts (tx : Tx) : List Script :=
  tx.inputs.map TxIn.script ++ tx.outputs.map TxOut.script

/-- The document of a transaction is plain. -/
theorem plain_toJson (tx : Tx) : tx.toJson.Plain :=
  ⟨trivial, plainItems_map fun input _ => input.plain_toJson,
    plainItems_map fun output _ => output.plain_toJson, trivial, trivial⟩

/-- A transaction with well-formed chunks is read back from its document. -/
theorem ofJson?_toJson {tx : Tx}
    (h : ∀ script ∈ tx.scripts, ∀ chunk ∈ script.chunks, chunk.WellFormed) :
    ofJson? tx.toJson = some tx := by
  rw [scripts, List.forall_mem_append, List.forall_mem_map, List.forall_mem_map] at h
  have hInputs : (Json.array (tx.inputs.map TxIn.toJson)).toList? TxIn.ofJson? = some tx.inputs :=
    toList?_array fun input hInput => TxIn.ofJson?_toJson (h.1 input hInput)
  have hOutputs : (Json.array (tx.outputs.map TxOut.toJson)).toList? TxOut.ofJson? =
      some tx.outputs :=
    toList?_array fun output hOutput => TxOut.ofJson?_toJson (h.2 output hOutput)
  have hFields : tx.toJson.fields? ["version", "inputs", "outputs", "lock_abs"] =
      some [some (.natural tx.version.toNat), some (.array (tx.inputs.map TxIn.toJson)),
        some (.array (tx.outputs.map TxOut.toJson)), some (.natural tx.lockAbs.toNat)] :=
    fields?_object (by decide) rfl
  unfold ofJson?
  rw [hFields]
  simp [toByte?_natural, toWord32?_natural, hInputs, hOutputs]

/-- A transaction that is read from a document is well-formed, if the document is not too large. -/
theorem wellFormed_of_ofJson? {json : Json} {tx : Tx} (h : ofJson? json = some tx)
    (hSize : json.size < 2 ^ 63) : tx.WellFormed := by
  obtain ⟨fields, hFields, h⟩ := Option.bind_eq_some_iff.1 h
  split at h
  · rename_i version inputs outputs lockAbs
    obtain ⟨_, -, h⟩ := Option.bind_eq_some_iff.1 h
    obtain ⟨readInputs, hInputs, h⟩ := Option.bind_eq_some_iff.1 h
    obtain ⟨readOutputs, hOutputs, h⟩ := Option.bind_eq_some_iff.1 h
    obtain ⟨_, -, h⟩ := Option.bind_eq_some_iff.1 h
    rw [← Option.some.inj h]
    have hInputsSize : inputs.size ≤ json.size := size_le_of_fields? hFields (by simp)
    have hOutputsSize : outputs.size ≤ json.size := size_le_of_fields? hFields (by simp)
    -- The counts, and the documents of the items, are bounded by the document.
    obtain ⟨hInputsLength, hEachInput⟩ := of_toList? hInputs
    obtain ⟨hOutputsLength, hEachOutput⟩ := of_toList? hOutputs
    refine ⟨?_, ?_, ?_, ?_⟩
    · dsimp only
      omega
    · intro input hInput
      obtain ⟨item, hItem, hRead⟩ := hEachInput input hInput
      exact TxIn.wellFormed_of_ofJson? hRead (by omega)
    · dsimp only
      omega
    · intro output hOutput
      obtain ⟨item, hItem, hRead⟩ := hEachOutput output hOutput
      exact TxOut.wellFormed_of_ofJson? hRead (by omega)
  · exact absurd h nofun

end Tx

/-! ## Headers and blocks -/

/-- The document of a header is plain. -/
theorem BlockHeader.plain_toJson (header : BlockHeader) : header.toJson.Plain :=
  ⟨trivial, trivial, trivial, trivial, trivial, trivial, trivial, trivial⟩

/-- Every header is read back from its document. -/
theorem BlockHeader.ofJson?_toJson (header : BlockHeader) :
    ofJson? header.toJson = some header := by
  have hFields : header.toJson.fields? fieldNames =
      some [some (.natural header.version.toNat), some header.prevBlockId.toJson,
        some header.merkleRoot.toJson, some (.natural header.timestamp.toNat),
        some header.target.toJson, some header.nonce.toJson,
        some (.natural header.index.toNat)] :=
    fields?_object (by decide) rfl
  unfold ofJson?
  rw [hFields]
  simp [FixedBytes.ofJson?_toJson, toWord32?_natural, toWord64?_natural]

namespace Block

/-- The document of a block is plain. -/
theorem plain_toJson (block : Block) : block.toJson.Plain :=
  ⟨block.header.plain_toJson, plainItems_map fun tx _ => tx.plain_toJson, trivial⟩

/-- A block with well-formed chunks is read back from its document. -/
theorem ofJson?_toJson {block : Block}
    (h : ∀ tx ∈ block.txs, ∀ script ∈ tx.scripts, ∀ chunk ∈ script.chunks, chunk.WellFormed) :
    ofJson? block.toJson = some block := by
  have hTxs : (Json.array (block.txs.map Tx.toJson)).toList? Tx.ofJson? = some block.txs :=
    toList?_array fun tx hTx => Tx.ofJson?_toJson (h tx hTx)
  have hFields : block.toJson.fields? ["header", "txs"] =
      some [some block.header.toJson, some (.array (block.txs.map Tx.toJson))] :=
    fields?_object (by decide) rfl
  unfold ofJson?
  rw [hFields]
  simp [BlockHeader.ofJson?_toJson, hTxs]

/-- A block that is read from a document is well-formed, if the document is not too large. -/
theorem wellFormed_of_ofJson? {json : Json} {block : Block} (h : ofJson? json = some block)
    (hSize : json.size < 2 ^ 63) : block.WellFormed := by
  obtain ⟨fields, hFields, h⟩ := Option.bind_eq_some_iff.1 h
  split at h
  · rename_i header txs
    obtain ⟨_, -, h⟩ := Option.bind_eq_some_iff.1 h
    obtain ⟨readTxs, hTxs, h⟩ := Option.bind_eq_some_iff.1 h
    rw [← Option.some.inj h]
    have hTxsSize : txs.size ≤ json.size := size_le_of_fields? hFields (by simp)
    obtain ⟨hLength, hEach⟩ := of_toList? hTxs
    refine ⟨?_, ?_⟩
    · dsimp only
      omega
    · intro tx hTx
      obtain ⟨item, hItem, hRead⟩ := hEach tx hTx
      exact Tx.wellFormed_of_ofJson? hRead (by omega)
  · exact absurd h nofun

end Block

/-! ## A second encoding -/

/-- JSON is a second encoding without loss. Bytes of fixed width, headers, and all scripts, inputs,
outputs, transactions and blocks with well-formed chunks are read back from the texts of their
documents, so that ids, hashes and merkle roots are unchanged. And whatever transaction or block is
read from a document is well-formed, and is read back from its bytes as well. -/
theorem Json.lossless :
    ((∀ width, ReadsBack (fun fixed : FixedBytes width => fixed.toJson) FixedBytes.ofJson?
        fun _ => True) ∧
      ReadsBack Script.toJson Script.ofJson?
        (fun script => ∀ chunk ∈ script.chunks, chunk.WellFormed) ∧
      ReadsBack TxIn.toJson TxIn.ofJson?
        (fun input => ∀ chunk ∈ input.script.chunks, chunk.WellFormed) ∧
      ReadsBack TxOut.toJson TxOut.ofJson?
        (fun output => ∀ chunk ∈ output.script.chunks, chunk.WellFormed) ∧
      ReadsBack Tx.toJson Tx.ofJson?
        (fun tx => ∀ script ∈ tx.scripts, ∀ chunk ∈ script.chunks, chunk.WellFormed) ∧
      ReadsBack BlockHeader.toJson BlockHeader.ofJson? (fun _ => True) ∧
      ReadsBack Block.toJson Block.ofJson?
        (fun block => ∀ tx ∈ block.txs, ∀ script ∈ tx.scripts, ∀ chunk ∈ script.chunks,
          chunk.WellFormed)) ∧
    ((∀ tx : Tx, (∀ script ∈ tx.scripts, ∀ chunk ∈ script.chunks, chunk.WellFormed) →
        (parse? (compact tx.toJson) >>= Tx.ofJson?).map (fun read => (read.id, read.hash)) =
          some (tx.id, tx.hash)) ∧
      (∀ header : BlockHeader,
        (parse? (compact header.toJson) >>= BlockHeader.ofJson?).map
          (fun read => (read.id, read.hash)) = some (header.id, header.hash)) ∧
      ∀ block : Block,
        (∀ tx ∈ block.txs, ∀ script ∈ tx.scripts, ∀ chunk ∈ script.chunks, chunk.WellFormed) →
        (parse? (compact block.toJson) >>= Block.ofJson?).map
          (fun read => (read.id, read.merkleRoot)) = some (block.id, block.merkleRoot)) ∧
    Admits Tx.ofJson? Tx.WellFormed ∧ Admits Block.ofJson? Block.WellFormed := by
  have hTx := readsBack_of_plain Tx.plain_toJson fun _ => Tx.ofJson?_toJson
  have hHeader : ReadsBack BlockHeader.toJson BlockHeader.ofJson? fun _ => True :=
    readsBack_of_plain BlockHeader.plain_toJson fun header _ => header.ofJson?_toJson
  have hBlock := readsBack_of_plain Block.plain_toJson fun _ => Block.ofJson?_toJson
  refine ⟨⟨fun width => ?_, ?_, ?_, ?_, hTx, hHeader, hBlock⟩, ⟨?_, ?_, ?_⟩, ?_, ?_⟩
  · exact readsBack_of_plain (fun _ => trivial) fun fixed _ => fixed.ofJson?_toJson
  · exact readsBack_of_plain (fun _ => trivial) fun _ => Script.ofJson?_toJson
  · exact readsBack_of_plain TxIn.plain_toJson fun _ => TxIn.ofJson?_toJson
  · exact readsBack_of_plain TxOut.plain_toJson fun _ => TxOut.ofJson?_toJson
  · intro tx hChunks
    rw [hTx tx hChunks]
    rfl
  · intro header
    rw [hHeader header trivial]
    rfl
  · intro block hChunks
    rw [hBlock block hChunks]
    rfl
  · exact admits_of_inverts Tx.inverts_decoder Tx.wellFormed_of_ofJson?
  · exact admits_of_inverts Block.inverts_decoder Block.wellFormed_of_ofJson?

namespace Sample

/-- A script of a direct push and an opcode that has no name. -/
def rawScript : Script := ⟨[⟨3, some [1, 2, 3]⟩, ⟨0xff, none⟩]⟩

/-- A transaction whose words are at their limits. -/
def rawTx : Tx := ⟨0xff, [⟨⟨FixedBytes.zero, 0xffffffff⟩, rawScript, 0xffffffff⟩],
  [⟨0xffffffffffffffff, rawScript⟩], 0xffffffff⟩

/-- A block of that transaction. -/
def rawBlock : Block where
  header := ⟨0xffffffff, FixedBytes.ofNat 1, FixedBytes.ofNat 2, 0xffffffffffffffff,
    FixedBytes.ofNat 3, FixedBytes.ofNat 4, 0xffffffffffffffff⟩
  txs := [rawTx]

/-- A document of a transaction that leaves out the names of the fields. -/
def shortDocument : String := "[0,[],[[5,\"03010203ff\"]],0]"

/-- The transaction of that document. -/
def shortTx : Tx := ⟨0, [], [⟨5, rawScript⟩], 0⟩

/-- The block is read back from the text of its document, and what the short document gives is
admitted. -/
theorem lossless_rawBlock :
    (parse? (compact rawBlock.toJson) >>= Block.ofJson?) = some rawBlock ∧
      (parse? shortDocument >>= Tx.ofJson?) = some shortTx ∧
      Wire.decode (Wire.encode shortTx) = .ok shortTx := by
  have hChunks : ∀ tx ∈ rawBlock.txs, ∀ script ∈ tx.scripts, ∀ chunk ∈ script.chunks,
      chunk.WellFormed := by decide +kernel
  have hLength : shortDocument.length < 2 ^ 63 := by decide +kernel
  have hShort : (parse? shortDocument >>= Tx.ofJson?) = some shortTx := by decide +kernel
  obtain ⟨⟨-, -, -, -, -, -, hBlock⟩, -, hAdmits, -⟩ := Json.lossless
  exact ⟨hBlock rawBlock hChunks, hShort, (hAdmits shortDocument shortTx hLength hShort).2⟩

end Sample

end UtxoChain
