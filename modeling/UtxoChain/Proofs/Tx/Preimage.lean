import UtxoChain.Proofs.Digest.Collisions
import UtxoChain.Proofs.Tx.Reading
import UtxoChain.Proofs.Tx.Signing
import UtxoChain.Tx.Sighash

/-!
# What a signature commits to

A preimage writes ten parts in a row, and it is told by them (`PreimageParts.eq_of_encode_eq`): all
have a fixed width but the script, whose length stands before it. Three of the parts are digests, each
of a list that the hash type selects, or zero. So two requests have one preimage exactly when they
agree in what their hash type selects (`Tx.SameCommitment`), unless two of the strings hashed collide
or the digest of one is zero. An input script is in none of these parts
(`Tx.preimage_withoutScripts`).
-/

namespace UtxoChain

open Decoder

/-! ## The parts of a preimage -/

/-- The parts that a preimage writes, in their order. -/
structure PreimageParts where
  /-- The version of the transaction. -/
  version : UInt8
  /-- The digest of the outpoints of all inputs, or zero. -/
  prevouts : Hash256
  /-- The digest of the relative locks of all inputs, or zero. -/
  lockRels : Hash256
  /-- The outpoint of the signed input. -/
  point : OutPoint
  /-- The bytes of the spent script. -/
  script : Bytes
  /-- The value of the spent output. -/
  amount : UInt64
  /-- The relative lock of the signed input. -/
  lockRel : UInt32
  /-- The digest of the outputs that the hash type selects, or zero. -/
  outputs : Hash256
  /-- The absolute lock of the transaction. -/
  lockAbs : UInt32
  /-- The hash type. -/
  hashType : SighashType

namespace PreimageParts

/-- The bytes of the parts in a row. -/
def encode (parts : PreimageParts) : Bytes :=
  [parts.version] ++ parts.prevouts.toBytes ++ parts.lockRels.toBytes ++ parts.point.encode
    ++ Bytes.counted parts.script ++ Bytes.ofNatBE 8 parts.amount.toNat
    ++ Bytes.ofNatBE 4 parts.lockRel.toNat ++ parts.outputs.toBytes
    ++ Bytes.ofNatBE 4 parts.lockAbs.toNat ++ [parts.hashType.byte]

/-- The parts are told by their bytes, if the lengths of their scripts are numbers of 64 bits. -/
theorem eq_of_encode_eq {one other : PreimageParts} (hOne : one.script.length < 2 ^ 64)
    (hOther : other.script.length < 2 ^ 64) (h : one.encode = other.encode) : one = other := by
  -- The parts after the script are split off at the end, and those before it at the front.
  obtain ⟨h, hType⟩ := List.append_inj' h rfl
  obtain ⟨h, hLockAbs⟩ := List.append_inj' h (by rw [Bytes.length_ofNatBE, Bytes.length_ofNatBE])
  obtain ⟨h, hOutputs⟩ :=
    List.append_inj' h (by rw [one.outputs.length_toBytes, other.outputs.length_toBytes])
  obtain ⟨h, hLockRel⟩ := List.append_inj' h (by rw [Bytes.length_ofNatBE, Bytes.length_ofNatBE])
  obtain ⟨h, hAmount⟩ := List.append_inj' h (by rw [Bytes.length_ofNatBE, Bytes.length_ofNatBE])
  obtain ⟨h, hScript⟩ := List.append_inj h (by simp [FixedBytes.length_toBytes])
  obtain ⟨h, hPoint⟩ :=
    List.append_inj' h (by rw [OutPoint.length_encode, OutPoint.length_encode])
  obtain ⟨h, hLockRels⟩ :=
    List.append_inj' h (by rw [one.lockRels.length_toBytes, other.lockRels.length_toBytes])
  obtain ⟨hVersion, hPrevouts⟩ := List.append_inj h rfl
  -- Each part is told by its own bytes.
  rw [Bytes.ofNatBE_inj one.lockAbs.toNat_lt other.lockAbs.toNat_lt, UInt32.toNat_inj] at hLockAbs
  rw [Bytes.ofNatBE_inj one.lockRel.toNat_lt other.lockRel.toNat_lt, UInt32.toNat_inj] at hLockRel
  rw [Bytes.ofNatBE_inj one.amount.toNat_lt other.amount.toNat_lt, UInt64.toNat_inj] at hAmount
  rw [FixedBytes.toBytes_inj] at hPrevouts hLockRels hOutputs
  replace hScript := inverts_countedBytes.eq_of_encode_eq hOne hOther hScript
  replace hPoint := OutPoint.inverts_decoder.eq_of_encode_eq trivial trivial hPoint
  rw [List.singleton_inj] at hVersion
  have hSameType : one.hashType = other.hashType :=
    congrArg SighashType.mk (List.singleton_inj.1 hType)
  cases one
  cases other
  rw [PreimageParts.mk.injEq]
  exact ⟨hVersion, hPrevouts, hLockRels, hPoint, hScript, hAmount, hLockRel, hOutputs, hLockAbs,
    hSameType⟩

end PreimageParts

/-! ## The selection of a hash type -/

namespace SighashType

/-- The other inputs are committed to exactly if the highest bit is clear. -/
theorem anyoneCanPay_eq_false_iff {type : SighashType} :
    type.anyoneCanPay = false ↔ type.byte &&& 0x80 = 0 := by
  simp [anyoneCanPay, anyoneCanPayBit]

/-- No outputs are committed to exactly if the base is 2. -/
theorem isNone_iff {type : SighashType} : type.isNone = true ↔ type.base = 2 := by
  rw [isNone, beq_iff_eq]

/-- A single output is committed to exactly if the base is 3. -/
theorem isSingle_iff {type : SighashType} : type.isSingle = true ↔ type.base = 3 := by
  rw [isSingle, beq_iff_eq]

/-- A digest over the whole transaction is left out. -/
def leavesOut (type : SighashType) : SubHash → Bool
  | .prevouts => type.anyoneCanPay
  | .lockRels => type.anyoneCanPay || type.isSingle || type.isNone
  | .outputs => type.isSingle || type.isNone

/-- The outpoints are not left out exactly if the highest bit is clear. -/
theorem leavesOut_prevouts_iff {type : SighashType} :
    type.leavesOut .prevouts = false ↔ type.byte &&& 0x80 = 0 :=
  anyoneCanPay_eq_false_iff

/-- The outputs are not left out exactly if the base is neither 2 nor 3. -/
theorem leavesOut_outputs_iff {type : SighashType} :
    type.leavesOut .outputs = false ↔ type.base ≠ 2 ∧ type.base ≠ 3 := by
  rw [leavesOut, Bool.or_eq_false_iff, ← Bool.not_eq_true, ← Bool.not_eq_true, isSingle_iff,
    isNone_iff, and_comm]

/-- The relative locks are not left out exactly if the highest bit is clear and the base is neither 2
nor 3. -/
theorem leavesOut_lockRels_iff {type : SighashType} :
    type.leavesOut .lockRels = false ↔
      type.byte &&& 0x80 = 0 ∧ type.base ≠ 2 ∧ type.base ≠ 3 := by
  rw [← leavesOut_outputs_iff, ← anyoneCanPay_eq_false_iff, leavesOut, leavesOut, Bool.or_assoc,
    Bool.or_eq_false_iff]

end SighashType

/-- The digests that are computed for a preimage are those that its hash type does not leave out. -/
theorem SighashRequest.mem_subHashes_iff {request : SighashRequest} {part : SubHash} :
    part ∈ request.subHashes ↔ request.hashType.leavesOut part = false := by
  cases part <;> simp [subHashes, SighashType.leavesOut, and_assoc]

namespace Tx

/-! ## The digests in a preimage -/

/-- A digest over the whole transaction, or zero if the hash type leaves it out. -/
def selectedDigest (tx : Tx) (type : SighashType) (part : SubHash) : Hash256 :=
  if type.leavesOut part then FixedBytes.zero else tx.subHash part

/-- The digest of an output, or zero if there is none. -/
def outputDigest : Option TxOut → Hash256
  | some output => doubleHash output.encode
  | none => FixedBytes.zero

/-- The parts of the preimage of a request that signs an input. -/
def preimageParts (tx : Tx) (request : SighashRequest) (input : TxIn) : PreimageParts where
  version := tx.version
  prevouts := tx.selectedDigest request.hashType .prevouts
  lockRels := tx.selectedDigest request.hashType .lockRels
  point := input.point
  script := request.script
  amount := request.amount
  lockRel := input.lockRel
  outputs :=
    if request.hashType.isSingle then outputDigest tx.outputs[request.inputIndex]?
    else tx.selectedDigest request.hashType .outputs
  lockAbs := tx.lockAbs
  hashType := request.hashType

/-- The digest of outputs in a preimage is that of the single output or that of all, as the hash type
says. -/
theorem outputsPart_eq (tx : Tx) (request : SighashRequest) :
    tx.outputsPart tx.subHash request = (tx.preimageParts request default).outputs := by
  unfold outputsPart preimageParts
  dsimp only
  cases hSingle : request.hashType.isSingle with
  | true =>
    rw [if_pos rfl, if_pos rfl]
    cases tx.outputs[request.inputIndex]? with
    | none => rw [outputDigest]
    | some output => rw [outputDigest]
  | false =>
    rw [if_neg Bool.false_ne_true, if_neg Bool.false_ne_true, selectedDigest,
      SighashType.leavesOut, hSingle, Bool.false_or]

/-- The preimage of a request for an input that is there writes its parts. -/
theorem preimage_eq_ok {tx : Tx} {request : SighashRequest} {input : TxIn}
    (h : tx.inputs[request.inputIndex]? = some input) :
    tx.preimage request = .ok (tx.preimageParts request input).encode := by
  unfold preimage preimageWith
  rw [h]
  dsimp only
  rw [outputsPart_eq]
  rfl

/-- The string whose double hash is one of the digests over the whole transaction. -/
def subHashString (tx : Tx) : SubHash → Bytes
  | .prevouts => (tx.inputs.map TxIn.point).flatMap OutPoint.encode
  | .lockRels => (tx.inputs.map TxIn.lockRel).flatMap fun lock => Bytes.ofNatBE 4 lock.toNat
  | .outputs => tx.outputs.flatMap TxOut.encode

/-- A digest over the whole transaction is the double hash of its string. -/
theorem subHash_eq_doubleHash (tx : Tx) (part : SubHash) :
    tx.subHash part = doubleHash (tx.subHashString part) := by
  cases part with
  | prevouts => rw [subHash, subHashString, List.flatMap_map]
  | lockRels => rw [subHash, subHashString, List.flatMap_map]
  | outputs => rw [subHash, subHashString]

/-- The strings that are hashed in building the preimage of a request. -/
def preimageStrings (tx : Tx) (request : SighashRequest) : List Bytes :=
  request.subHashes.map tx.subHashString ++
    if request.hashType.isSingle then (tx.outputs[request.inputIndex]?.map TxOut.encode).toList
    else []

/-- The string of a digest that is not left out is hashed. -/
theorem subHashString_mem_preimageStrings {tx : Tx} {request : SighashRequest} {part : SubHash}
    (h : request.hashType.leavesOut part = false) :
    tx.subHashString part ∈ tx.preimageStrings request := by
  have hMem := List.mem_map_of_mem (f := tx.subHashString) (SighashRequest.mem_subHashes_iff.2 h)
  exact List.mem_append_left _ hMem

/-- The string of a single output that is there is hashed. -/
theorem encode_mem_preimageStrings {tx : Tx} {request : SighashRequest} {output : TxOut}
    (hSingle : request.hashType.isSingle = true)
    (hOutput : tx.outputs[request.inputIndex]? = some output) :
    output.encode ∈ tx.preimageStrings request := by
  unfold preimageStrings
  rw [hSingle, if_pos rfl, hOutput]
  exact List.mem_append_right _ List.mem_cons_self

/-! ## Agreement -/

/-- Two requests agree in everything that their hash type selects. -/
structure SameCommitment (tx : Tx) (request : SighashRequest) (other : Tx)
    (otherRequest : SighashRequest) : Prop where
  /-- The hash types agree. -/
  hashType : request.hashType = otherRequest.hashType
  /-- The versions agree. -/
  version : tx.version = other.version
  /-- The absolute locks agree. -/
  lockAbs : tx.lockAbs = other.lockAbs
  /-- The spent scripts agree. -/
  script : request.script = otherRequest.script
  /-- The spent values agree. -/
  amount : request.amount = otherRequest.amount
  /-- The outpoints of the signed inputs agree. -/
  point : tx.inputs[request.inputIndex]?.map TxIn.point =
    other.inputs[otherRequest.inputIndex]?.map TxIn.point
  /-- The relative locks of the signed inputs agree. -/
  lockRel : tx.inputs[request.inputIndex]?.map TxIn.lockRel =
    other.inputs[otherRequest.inputIndex]?.map TxIn.lockRel
  /-- The outpoints of all inputs agree, if the highest bit is clear. -/
  points : request.hashType.byte &&& 0x80 = 0 →
    tx.inputs.map TxIn.point = other.inputs.map TxIn.point
  /-- The relative locks of all inputs agree, if the highest bit is clear and the base is neither 2
  nor 3. -/
  lockRels : request.hashType.byte &&& 0x80 = 0 →
    request.hashType.base ≠ 2 ∧ request.hashType.base ≠ 3 →
    tx.inputs.map TxIn.lockRel = other.inputs.map TxIn.lockRel
  /-- The outputs agree, if the base is neither 2 nor 3. -/
  outputs : request.hashType.base ≠ 2 ∧ request.hashType.base ≠ 3 → tx.outputs = other.outputs
  /-- The outputs at the positions of the signed inputs agree, or neither is there, if the base
  is 3. -/
  output : request.hashType.base = 3 →
    tx.outputs[request.inputIndex]? = other.outputs[otherRequest.inputIndex]?

section Agreement

variable {tx other : Tx} {request otherRequest : SighashRequest} {input otherInput : TxIn}

/-- Requests that agree in what they select hash the same strings over the whole transactions. -/
theorem SameCommitment.subHashString_eq (h : SameCommitment tx request other otherRequest)
    {part : SubHash} (hPart : request.hashType.leavesOut part = false) :
    tx.subHashString part = other.subHashString part := by
  cases part with
  | prevouts =>
    have hBit := SighashType.leavesOut_prevouts_iff.1 hPart
    rw [subHashString, subHashString, h.points hBit]
  | lockRels =>
    obtain ⟨hBit, hBase⟩ := SighashType.leavesOut_lockRels_iff.1 hPart
    rw [subHashString, subHashString, h.lockRels hBit hBase]
  | outputs =>
    have hBase := SighashType.leavesOut_outputs_iff.1 hPart
    rw [subHashString, subHashString, h.outputs hBase]

/-- Requests that agree in what they select have the same digests over the whole transactions. -/
theorem SameCommitment.selectedDigest_eq (h : SameCommitment tx request other otherRequest)
    (part : SubHash) :
    tx.selectedDigest request.hashType part = other.selectedDigest otherRequest.hashType part := by
  unfold selectedDigest
  rw [← h.hashType]
  cases hPart : request.hashType.leavesOut part with
  | true => rw [if_pos rfl, if_pos rfl]
  | false =>
    rw [if_neg Bool.false_ne_true, if_neg Bool.false_ne_true, subHash_eq_doubleHash,
      subHash_eq_doubleHash, h.subHashString_eq hPart]

/-- Requests that agree in what they select have the same parts. -/
theorem SameCommitment.preimageParts_eq (h : SameCommitment tx request other otherRequest)
    (hInput : tx.inputs[request.inputIndex]? = some input)
    (hOther : other.inputs[otherRequest.inputIndex]? = some otherInput) :
    tx.preimageParts request input = other.preimageParts otherRequest otherInput := by
  have hPoint := h.point
  have hLockRel := h.lockRel
  rw [hInput, hOther, Option.map_some, Option.map_some, Option.some_inj] at hPoint hLockRel
  have hOutputs : (tx.preimageParts request input).outputs =
      (other.preimageParts otherRequest otherInput).outputs := by
    unfold preimageParts
    dsimp only
    rw [h.selectedDigest_eq .outputs, ← h.hashType]
    cases hSingle : request.hashType.isSingle with
    | true => rw [h.output (SighashType.isSingle_iff.1 hSingle)]
    | false => rw [if_neg Bool.false_ne_true, if_neg Bool.false_ne_true]
  unfold preimageParts at hOutputs ⊢
  rw [PreimageParts.mk.injEq]
  exact ⟨h.version, h.selectedDigest_eq .prevouts, h.selectedDigest_eq .lockRels, hPoint, h.script,
    h.amount, hLockRel, hOutputs, h.lockAbs, h.hashType⟩

/-- Requests with the same digest over their whole transactions hash the same string for it, if the
digest is not left out and no two of the strings hashed collide. -/
theorem subHashString_eq_of_selectedDigest_eq {part : SubHash}
    (hFree : CollisionFree (tx.preimageStrings request ++ other.preimageStrings otherRequest))
    (hType : request.hashType = otherRequest.hashType)
    (hPart : request.hashType.leavesOut part = false)
    (h : tx.selectedDigest request.hashType part =
      other.selectedDigest otherRequest.hashType part) :
    tx.subHashString part = other.subHashString part := by
  have hOther : otherRequest.hashType.leavesOut part = false := hType ▸ hPart
  unfold selectedDigest at h
  rw [hPart, hOther, if_neg Bool.false_ne_true, if_neg Bool.false_ne_true, subHash_eq_doubleHash,
    subHash_eq_doubleHash] at h
  exact hFree _ (List.mem_append_left _ (subHashString_mem_preimageStrings hPart)) _
    (List.mem_append_right _ (subHashString_mem_preimageStrings hOther)) h

/-- Requests for a single output with the same digest of it have the same one, or none, if no two of the
strings hashed collide and none has the digest zero. -/
theorem output_eq_of_outputDigest_eq
    (hFree : CollisionFree (tx.preimageStrings request ++ other.preimageStrings otherRequest))
    (hZero : ∀ string ∈ tx.preimageStrings request ++ other.preimageStrings otherRequest,
      doubleHash string ≠ FixedBytes.zero)
    (hOutputs : ∀ output ∈ tx.outputs, output.script.WellFormed)
    (hOtherOutputs : ∀ output ∈ other.outputs, output.script.WellFormed)
    (hSingle : request.hashType.isSingle = true) (hOther : otherRequest.hashType.isSingle = true)
    (h : outputDigest tx.outputs[request.inputIndex]? =
      outputDigest other.outputs[otherRequest.inputIndex]?) :
    tx.outputs[request.inputIndex]? = other.outputs[otherRequest.inputIndex]? := by
  cases hOne : tx.outputs[request.inputIndex]? with
  | none =>
    cases hTwo : other.outputs[otherRequest.inputIndex]? with
    | none => rfl
    | some output =>
      rw [hOne, hTwo, outputDigest, outputDigest, eq_comm] at h
      exact absurd h (hZero _ (List.mem_append_right _ (encode_mem_preimageStrings hOther hTwo)))
  | some output =>
    have hHashed := encode_mem_preimageStrings hSingle hOne
    cases hTwo : other.outputs[otherRequest.inputIndex]? with
    | none =>
      rw [hOne, hTwo, outputDigest, outputDigest] at h
      exact absurd h (hZero _ (List.mem_append_left _ hHashed))
    | some output' =>
      rw [hOne, hTwo, outputDigest, outputDigest] at h
      have hEncode : output.encode = output'.encode :=
        hFree _ (List.mem_append_left _ hHashed) _
          (List.mem_append_right _ (encode_mem_preimageStrings hOther hTwo)) h
      have hWellFormed := hOutputs output (List.mem_of_getElem? hOne)
      have hWellFormed' := hOtherOutputs output' (List.mem_of_getElem? hTwo)
      rw [TxOut.inverts_decoder.eq_of_encode_eq hWellFormed hWellFormed' hEncode]

/-- Requests with the same parts agree in what they select, if no two of the strings hashed collide and
none has the digest zero. -/
theorem sameCommitment_of_preimageParts_eq
    (hInput : tx.inputs[request.inputIndex]? = some input)
    (hOther : other.inputs[otherRequest.inputIndex]? = some otherInput)
    (hOutputs : ∀ output ∈ tx.outputs, output.script.WellFormed)
    (hOtherOutputs : ∀ output ∈ other.outputs, output.script.WellFormed)
    (hFree : CollisionFree (tx.preimageStrings request ++ other.preimageStrings otherRequest))
    (hZero : ∀ string ∈ tx.preimageStrings request ++ other.preimageStrings otherRequest,
      doubleHash string ≠ FixedBytes.zero)
    (h : tx.preimageParts request input = other.preimageParts otherRequest otherInput) :
    SameCommitment tx request other otherRequest := by
  unfold preimageParts at h
  rw [PreimageParts.mk.injEq] at h
  obtain ⟨hVersion, hPrevouts, hLockRels, hPoint, hScript, hAmount, hLockRel, hDigest, hLockAbs,
    hType⟩ := h
  refine ⟨hType, hVersion, hLockAbs, hScript, hAmount, ?_, ?_, ?_, ?_, ?_, ?_⟩
  · rw [hInput, hOther, Option.map_some, Option.map_some, hPoint]
  · rw [hInput, hOther, Option.map_some, Option.map_some, hLockRel]
  · intro hBit
    have hPart := SighashType.leavesOut_prevouts_iff.2 hBit
    have hString := subHashString_eq_of_selectedDigest_eq hFree hType hPart hPrevouts
    exact OutPoint.inverts_decoder.eq_of_flatMap_eq OutPoint.encode_ne_nil (fun _ _ => trivial)
      (fun _ _ => trivial) hString
  · intro hBit hBase
    have hPart := SighashType.leavesOut_lockRels_iff.2 ⟨hBit, hBase⟩
    have hString := subHashString_eq_of_selectedDigest_eq hFree hType hPart hLockRels
    refine inverts_word32.eq_of_flatMap_eq (fun lock => ?_) (fun _ _ => trivial)
      (fun _ _ => trivial) hString
    exact List.ne_nil_of_length_pos (by rw [Bytes.length_ofNatBE]; decide)
  · intro hBase
    have hPart := SighashType.leavesOut_outputs_iff.2 hBase
    have hSingle : request.hashType.isSingle = false := by
      rw [← Bool.not_eq_true, SighashType.isSingle_iff]
      exact hBase.2
    rw [← hType, hSingle, if_neg Bool.false_ne_true, if_neg Bool.false_ne_true] at hDigest
    have hString := subHashString_eq_of_selectedDigest_eq hFree hType hPart (hType ▸ hDigest)
    exact TxOut.inverts_decoder.eq_of_flatMap_eq TxOut.encode_ne_nil hOutputs hOtherOutputs hString
  · intro hBase
    have hSingle := SighashType.isSingle_iff.2 hBase
    have hOtherSingle : otherRequest.hashType.isSingle = true := hType ▸ hSingle
    rw [hSingle, hOtherSingle, if_pos rfl, if_pos rfl] at hDigest
    exact output_eq_of_outputDigest_eq hFree hZero hOutputs hOtherOutputs hSingle hOtherSingle hDigest

end Agreement

/-! ## Input scripts -/

/-- A transaction without the scripts of its inputs. -/
def withoutScripts (tx : Tx) : Tx :=
  { tx with inputs := tx.inputs.map fun input => { input with script := .empty } }

/-- No preimage depends on an input script. -/
theorem preimage_withoutScripts (tx : Tx) (request : SighashRequest) :
    tx.withoutScripts.preimage request = tx.preimage request := by
  have hDigests : tx.withoutScripts.subHash = tx.subHash := by
    funext part
    cases part with
    | prevouts => rw [subHash, subHash, withoutScripts, List.flatMap_map]
    | lockRels => rw [subHash, subHash, withoutScripts, List.flatMap_map]
    | outputs => rw [subHash, subHash, withoutScripts]
  unfold preimage
  rw [hDigests]
  unfold preimageWith withoutScripts outputsPart
  dsimp only
  rw [List.getElem?_map, List.length_map]
  cases tx.inputs[request.inputIndex]? with
  | none => rfl
  | some input => rfl

/-- Transactions that differ in their input scripts only have the same preimages. -/
theorem preimage_eq_of_withoutScripts_eq {tx other : Tx}
    (h : tx.withoutScripts = other.withoutScripts) (request : SighashRequest) :
    tx.preimage request = other.preimage request := by
  rw [← preimage_withoutScripts tx, h, preimage_withoutScripts]

/-- Faithful caches of transactions that differ in their input scripts only give the same digests. -/
theorem sighashOf_eq_of_withoutScripts_eq {cache other : DigestCache} (hCache : cache.Faithful)
    (hOther : other.Faithful) (h : cache.tx.withoutScripts = other.tx.withoutScripts) :
    cache.sighashOf = other.sighashOf := by
  funext request
  rw [hCache.sighashOf_eq, hOther.sighashOf_eq, sighash, sighash,
    preimage_eq_of_withoutScripts_eq h]

/-- Transactions that differ in their input scripts only have the same inputs, as far as these are read
without their scripts. -/
theorem map_eq_of_withoutScripts_eq {tx other : Tx} (h : tx.withoutScripts = other.withoutScripts)
    {α : Type} {read : TxIn → α} (hRead : ∀ input, read { input with script := .empty } = read input) :
    tx.inputs.map read = other.inputs.map read := by
  have hInputs := congrArg (fun bare : Tx => bare.inputs.map read) h
  simpa [withoutScripts, Function.comp_def, hRead] using hInputs

/-- Transactions that differ in their input scripts only name the same outpoints. -/
theorem map_point_eq_of_withoutScripts_eq {tx other : Tx}
    (h : tx.withoutScripts = other.withoutScripts) :
    tx.inputs.map TxIn.point = other.inputs.map TxIn.point :=
  map_eq_of_withoutScripts_eq h fun _ => rfl

/-! ## The commitment -/

/-- Two requests for inputs that are there have preimages. These are the same if the requests agree in
what their hash type selects, and only then, unless two of the strings hashed collide or the digest of
one is zero. The scripts of the inputs change nothing. -/
theorem preimage_eq_iff_sameCommitment (tx other : Tx) (request otherRequest : SighashRequest)
    (hIndex : request.inputIndex < tx.inputs.length)
    (hOtherIndex : otherRequest.inputIndex < other.inputs.length)
    (hScript : request.script.length < 2 ^ 64) (hOtherScript : otherRequest.script.length < 2 ^ 64)
    (hOutputs : ∀ output ∈ tx.outputs, output.script.WellFormed)
    (hOtherOutputs : ∀ output ∈ other.outputs, output.script.WellFormed) :
    ∃ bytes otherBytes, tx.preimage request = .ok bytes ∧
      other.preimage otherRequest = .ok otherBytes ∧
      (SameCommitment tx request other otherRequest → bytes = otherBytes) ∧
      (CollisionFree (tx.preimageStrings request ++ other.preimageStrings otherRequest) →
        (∀ string ∈ tx.preimageStrings request ++ other.preimageStrings otherRequest,
          doubleHash string ≠ FixedBytes.zero) →
        bytes = otherBytes → SameCommitment tx request other otherRequest) ∧
      ∀ variant : Tx, variant.withoutScripts = tx.withoutScripts →
        variant.preimage request = .ok bytes := by
  have hInput := List.getElem?_eq_getElem hIndex
  have hOther := List.getElem?_eq_getElem hOtherIndex
  have hBytes := preimage_eq_ok hInput
  refine ⟨_, _, hBytes, preimage_eq_ok hOther, ?_, ?_, ?_⟩
  · intro hSame
    rw [hSame.preimageParts_eq hInput hOther]
  · intro hFree hZero hEncode
    have hParts := PreimageParts.eq_of_encode_eq hScript hOtherScript hEncode
    exact sameCommitment_of_preimageParts_eq hInput hOther hOutputs hOtherOutputs hFree hZero hParts
  · intro variant hVariant
    rw [preimage_eq_of_withoutScripts_eq hVariant, hBytes]

end Tx

namespace Sample

/-! ## Two transactions with a common signature

The second holds the second input and the second output of the first. -/

/-- The transaction with two inputs and two outputs. -/
def paysTwo : Tx :=
  ⟨0, [⟨⟨FixedBytes.ofNat 1, 0⟩, .empty, 0⟩, ⟨⟨FixedBytes.ofNat 1, 1⟩, .empty, 5⟩],
    [⟨3, .empty⟩, ⟨4, .empty⟩], 0⟩

/-- The transaction with one input, whose script differs, and one output. -/
def paysOne : Tx := ⟨0, [⟨⟨FixedBytes.ofNat 1, 1⟩, ⟨[.ofOpcode .op1]⟩, 5⟩], [⟨4, .empty⟩], 0⟩

/-- The request for the input at a position, under a hash type. -/
def requestAt (index : Nat) (type : UInt8) : SighashRequest := ⟨index, [], 9, ⟨type⟩⟩

/-- A signature of the single output that lets anyone pay is good for both transactions, and one of all
inputs and outputs is not: the one preimage is common, and the other is not. -/
theorem preimage_paysTwo_paysOne :
    paysTwo.preimage (requestAt 1 0x83) = paysOne.preimage (requestAt 0 0x83) ∧
      paysTwo.preimage (requestAt 1 0x01) ≠ paysOne.preimage (requestAt 0 0x01) := by
  have hTwo : ∀ output ∈ paysTwo.outputs, output.script.WellFormed := by decide
  have hOne : ∀ output ∈ paysOne.outputs, output.script.WellFormed := by decide
  constructor
  · obtain ⟨bytes, otherBytes, hBytes, hOther, hSame, -⟩ :=
      Tx.preimage_eq_iff_sameCommitment paysTwo paysOne (requestAt 1 0x83) (requestAt 0 0x83)
        (by decide) (by decide) (by decide) (by decide) hTwo hOne
    have hAgree : Tx.SameCommitment paysTwo (requestAt 1 0x83) paysOne (requestAt 0 0x83) :=
      ⟨rfl, rfl, rfl, rfl, rfl, rfl, rfl, by decide, by decide, by decide, fun _ => rfl⟩
    rw [hBytes, hOther, hSame hAgree]
  · obtain ⟨bytes, otherBytes, hBytes, hOther, -, hSame, -⟩ :=
      Tx.preimage_eq_iff_sameCommitment paysTwo paysOne (requestAt 1 0x01) (requestAt 0 0x01)
        (by decide) (by decide) (by decide) (by decide) hTwo hOne
    have hFree : CollisionFree (paysTwo.preimageStrings (requestAt 1 0x01) ++
        paysOne.preimageStrings (requestAt 0 0x01)) := by decide +kernel
    have hZero : ∀ string ∈ paysTwo.preimageStrings (requestAt 1 0x01) ++
        paysOne.preimageStrings (requestAt 0 0x01), doubleHash string ≠ FixedBytes.zero := by
      decide +kernel
    rw [hBytes, hOther]
    intro hEqual
    have hOutputs := (hSame hFree hZero (Except.ok.inj hEqual)).outputs (by decide)
    exact absurd hOutputs (by decide)

end Sample

end UtxoChain
