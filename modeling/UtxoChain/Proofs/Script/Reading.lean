import UtxoChain.Proofs.Wire.Counted
import UtxoChain.Script.Chunk

/-!
# Reading scripts

A chunk is well-formed if its opcode suits its payload: then it is what `Chunk.ofParts` makes of its
two parts. Exactly the well-formed chunks are read from bytes, each from its own encoding, and so are
the scripts of such chunks.
-/

namespace UtxoChain

open Decoder Stateful

namespace Opcode

/-- A byte reads as an opcode exactly if it is the byte of that opcode. -/
theorem ofByte?_eq_some_iff {byte : UInt8} {op : Opcode} :
    ofByte? byte = some op ↔ op.toByte = byte := by
  constructor
  · exact toByte_of_ofByte?
  · rintro rfl
    exact ofByte?_toByte op

/-- The direct pushes stand outside the table. -/
theorem ofByte?_eq_none_of_isDirectPush {byte : UInt8} (h : isDirectPush byte = true) :
    ofByte? byte = none := by
  have table : ∀ op ∈ all, isDirectPush op.toByte = false := by decide
  rw [Option.eq_none_iff_forall_ne_some]
  intro op hOp
  rw [← toByte_of_ofByte? hOp, table op (mem_all op)] at h
  exact absurd h (by decide)

/-- The bytes whose chunks carry a payload are the direct pushes and the counted ones. -/
theorem isPushData_iff {byte : UInt8} :
    isPushData byte = true ↔ isDirectPush byte = true ∨ ofByte? byte = some .pushData1 ∨
      ofByte? byte = some .pushData2 ∨ ofByte? byte = some .pushData4 := by
  simp only [isPushData, Bool.or_eq_true, beq_iff_eq, ofByte?_eq_some_iff, eq_comm (a := byte),
    or_assoc]

/-- The opcodes of numbers are those of 0 to 16. -/
theorem le_of_ofSmallInt? {n : Nat} {op : Opcode} (h : ofSmallInt? n = some op) : n ≤ 16 := by
  by_contra hLarge
  have hNone : ofSmallInt? n = none := by
    unfold ofSmallInt?
    rw [if_neg (by omega), if_neg (by omega)]
  rw [hNone] at h
  exact absurd h (by simp)

/-- What holds of the seventeen opcodes of numbers holds of each. -/
theorem forall_of_ofSmallInt? {p : Nat → Opcode → Bool}
    (table : ∀ n ∈ List.range 17, (ofSmallInt? n).all (p n) = true) {n : Nat} {op : Opcode}
    (h : ofSmallInt? n = some op) : p n op = true := by
  have hRow := table n (List.mem_range.2 (Nat.lt_succ_of_le (le_of_ofSmallInt? h)))
  rw [h] at hRow
  exact hRow

/-- The opcodes of numbers push no payload. -/
theorem isPushData_of_ofSmallInt? {n : Nat} {op : Opcode} (h : ofSmallInt? n = some op) :
    isPushData op.toByte = false := by
  have hNot : (!isPushData op.toByte) = true :=
    forall_of_ofSmallInt? (p := fun _ op => !isPushData op.toByte) (by decide) h
  simpa using hNot

/-- The opcodes of numbers steer nothing. -/
theorem isConditional_of_ofSmallInt? {n : Nat} {op : Opcode} (h : ofSmallInt? n = some op) :
    op.isConditional = false := by
  have hNot : (!op.isConditional) = true :=
    forall_of_ofSmallInt? (p := fun _ op => !op.isConditional) (by decide) h
  simpa using hNot

/-- The opcodes of numbers do not end a script. -/
theorem ne_returnOp_of_ofSmallInt? {n : Nat} {op : Opcode} (h : ofSmallInt? n = some op) :
    op ≠ .returnOp := by
  have hNot : (op != .returnOp) = true :=
    forall_of_ofSmallInt? (p := fun _ op => op != .returnOp) (by decide) h
  simpa using hNot

/-- An opcode that is named by a number is the opcode of that number. -/
theorem ofSmallInt?_of_smallInt? {op : Opcode} {n : Nat} (h : op.smallInt? = some n) :
    ofSmallInt? n = some op := by
  have table : ∀ op ∈ all, op.smallInt?.all (fun n => ofSmallInt? n == some op) = true := by decide
  have hRow := table op (mem_all op)
  rw [h] at hRow
  simpa using hRow

end Opcode

namespace Chunk

/-- The opcode of a chunk suits its payload. -/
def WellFormed (chunk : Chunk) : Prop :=
  ofParts chunk.opcode chunk.payload = .ok chunk

instance : DecidablePred WellFormed := fun chunk =>
  inferInstanceAs (Decidable (ofParts chunk.opcode chunk.payload = .ok chunk))

/-- A chunk made from parts has those parts and is well-formed. -/
theorem ofParts_eq_ok_iff {opcode : UInt8} {payload : Option Bytes} {chunk : Chunk} :
    ofParts opcode payload = .ok chunk ↔ chunk = ⟨opcode, payload⟩ ∧ chunk.WellFormed := by
  have hParts : ofParts opcode payload = .ok chunk → chunk = ⟨opcode, payload⟩ := by
    unfold ofParts
    cases payload with
    | none =>
      cases Opcode.isPushData opcode with
      | true => simp
      | false => simp [pure, Except.pure, eq_comm]
    | some data =>
      cases Opcode.isPushData opcode with
      | true =>
        rw [andThen_eq_ok_iff]
        rintro ⟨-, h⟩
        exact (Except.ok.inj h).symm
      | false => simp
  constructor
  · intro h
    obtain rfl := hParts h
    exact ⟨rfl, h⟩
  · rintro ⟨rfl, h⟩
    exact h

/-- A chunk without payload is well-formed if its opcode pushes none. -/
theorem wellFormed_none_iff {opcode : UInt8} :
    WellFormed ⟨opcode, none⟩ ↔ Opcode.isPushData opcode = false := by
  unfold WellFormed ofParts
  cases Opcode.isPushData opcode with
  | true => simp
  | false => simp [pure, Except.pure]

/-- A chunk with a payload is well-formed if its opcode pushes one of that length. -/
theorem wellFormed_some_iff {opcode : UInt8} {data : Bytes} :
    WellFormed ⟨opcode, some data⟩ ↔
      Opcode.isPushData opcode = true ∧ checkLength opcode data.length = .ok () := by
  unfold WellFormed ofParts
  cases Opcode.isPushData opcode with
  | true => simp [andThen_eq_ok_iff, pure, Except.pure]
  | false => simp

/-- How the length of a payload is told after an opcode byte, in reading and in writing. -/
inductive LengthForm (opcode : UInt8) : Prop
  /-- The byte is the length. -/
  | direct (isPush : Opcode.isPushData opcode = true)
      (read : payloadLength opcode = pure (some opcode.toNat))
      (write : ∀ length, lengthPrefix opcode length = [])
      (check : ∀ length, checkLength opcode length = .ok () → length = opcode.toNat)
  /-- The length follows in a number of bytes. -/
  | counted (width : Nat) (isPush : Opcode.isPushData opcode = true)
      (read : payloadLength opcode = some <$> natBE width)
      (write : ∀ length, lengthPrefix opcode length = Bytes.ofNatBE width length)
      (check : ∀ length, checkLength opcode length = .ok () → length < 256 ^ width)
  /-- There is no payload. -/
  | absent (notPush : Opcode.isPushData opcode = false) (read : payloadLength opcode = pure none)

/-- Every opcode byte tells the length of its payload in one of three forms. -/
theorem lengthForm (opcode : UInt8) : LengthForm opcode := by
  cases hDirect : Opcode.isDirectPush opcode with
  | true =>
    have hNone := Opcode.ofByte?_eq_none_of_isDirectPush hDirect
    refine .direct (Opcode.isPushData_iff.2 (.inl hDirect)) ?_ ?_ ?_
    · simp [payloadLength, hDirect]
    · simp [lengthPrefix, hNone]
    · intro length h
      simpa [checkLength, hNone] using h
  | false =>
    -- The counted pushes differ in the width of their count only.
    by_cases hOne : Opcode.ofByte? opcode = some .pushData1
    · refine .counted 1 (Opcode.isPushData_iff.2 (.inr (.inl hOne))) ?_ ?_ ?_
      · simp [payloadLength, hDirect, hOne]
      · simp [lengthPrefix, hOne]
      · intro length h
        have : length ≤ 0xff := by simpa [checkLength, hOne] using h
        omega
    by_cases hTwo : Opcode.ofByte? opcode = some .pushData2
    · refine .counted 2 (Opcode.isPushData_iff.2 (.inr (.inr (.inl hTwo)))) ?_ ?_ ?_
      · simp [payloadLength, hDirect, hTwo]
      · simp [lengthPrefix, hTwo]
      · intro length h
        simp only [checkLength, hTwo] at h
        split_ifs at h with hShort hFits
        have : length ≤ 0xffff := by simpa using hFits
        omega
    by_cases hFour : Opcode.ofByte? opcode = some .pushData4
    · refine .counted 4 (Opcode.isPushData_iff.2 (.inr (.inr (.inr hFour)))) ?_ ?_ ?_
      · simp [payloadLength, hDirect, hFour]
      · simp [lengthPrefix, hFour]
      · intro length h
        simp only [checkLength, hFour] at h
        split_ifs at h with hShort hFits
        have : length ≤ 0xffffffff := by simpa using hFits
        omega
    refine .absent ?_ ?_
    · rw [← Bool.not_eq_true, Opcode.isPushData_iff]
      simp [hDirect, hOne, hTwo, hFour]
    · unfold payloadLength
      rw [hDirect, if_neg (by decide)]
      split <;> simp_all

/-- No length is read exactly after an opcode that pushes no payload. -/
theorem payloadLength_none_iff {opcode : UInt8} {start stop : Cursor} :
    payloadLength opcode start = .ok none stop ↔
      Opcode.isPushData opcode = false ∧ start = stop := by
  rcases lengthForm opcode with ⟨hPush, hRead, -, -⟩ | ⟨width, hPush, hRead, -, -⟩ | ⟨hPush, hRead⟩
  · simp [hRead, hPush, pure_ok_iff]
  · simp [hRead, hPush, map_ok_iff]
  · simp [hRead, hPush, pure_ok_iff]

/-- A length that is read is that of a payload, and its own bytes are taken. -/
theorem took_of_payloadLength {opcode : UInt8} {length : Nat} {start stop : Cursor}
    (h : payloadLength opcode start = .ok (some length) stop) :
    Opcode.isPushData opcode = true ∧ start.Took (lengthPrefix opcode length) stop := by
  rcases lengthForm opcode with
    ⟨hPush, hRead, hWrite, -⟩ | ⟨width, hPush, hRead, hWrite, -⟩ | ⟨hPush, hRead⟩
  · rw [hRead, pure_ok_iff] at h
    rw [hWrite, Cursor.took_nil_iff]
    exact ⟨hPush, h.2⟩
  · rw [hRead, map_ok_iff] at h
    obtain ⟨n, hNumber, hSome⟩ := h
    obtain rfl := Option.some_inj.1 hSome
    rw [hWrite]
    exact ⟨hPush, (natBE_ok_iff.1 hNumber).2⟩
  · rw [hRead, pure_ok_iff] at h
    exact absurd h.1 (by simp)

/-- A length that suits the opcode is read from its own bytes. -/
theorem payloadLength_of_took {opcode : UInt8} {length : Nat} {start stop : Cursor}
    (hPush : Opcode.isPushData opcode = true) (hLength : checkLength opcode length = .ok ())
    (hTook : start.Took (lengthPrefix opcode length) stop) :
    payloadLength opcode start = .ok (some length) stop := by
  rcases lengthForm opcode with
    ⟨-, hRead, hWrite, hCheck⟩ | ⟨width, -, hRead, hWrite, hCheck⟩ | ⟨hNotPush, -⟩
  · rw [hWrite, Cursor.took_nil_iff] at hTook
    rw [hRead, pure_ok_iff, hCheck length hLength]
    exact ⟨rfl, hTook⟩
  · rw [hWrite] at hTook
    rw [hRead, map_ok_iff]
    exact ⟨length, natBE_ok_iff.2 ⟨hCheck length hLength, hTook⟩, rfl⟩
  · rw [hPush] at hNotPush
    exact absurd hNotPush (by decide)

/-- A chunk is read from its encoding, and every chunk that is read is well-formed. -/
theorem inverts_decoder : Inverts decoder encode WellFormed := by
  intro start chunk stop
  unfold decoder
  rw [bind_ok_iff]
  constructor
  · rintro ⟨opcode, afterOpcode, hOpcode, h⟩
    rw [byte_ok_iff] at hOpcode
    obtain ⟨length?, afterLength, hLength, hPayload⟩ := bind_ok_iff.1 h
    cases length? with
    | none =>
      obtain ⟨hPush, rfl⟩ := payloadLength_none_iff.1 hLength
      obtain ⟨rfl, rfl⟩ := pure_ok_iff.1 hPayload
      exact ⟨wellFormed_none_iff.2 hPush, hOpcode⟩
    | some length =>
      obtain ⟨-, hPrefix⟩ := took_of_payloadLength hLength
      obtain ⟨data, afterData, hData, hMade⟩ := bind_ok_iff.1 hPayload
      obtain ⟨rfl, hTook⟩ := bytesOr_ok_iff.1 hData
      obtain ⟨hParts, rfl⟩ := ofExcept_ok_iff.1 hMade
      obtain ⟨rfl, hWellFormed⟩ := ofParts_eq_ok_iff.1 hParts
      refine ⟨hWellFormed, (Cursor.took_append_iff _ [opcode] _ _).2 ⟨afterOpcode, hOpcode, ?_⟩⟩
      exact (Cursor.took_append_iff _ _ _ _).2 ⟨afterLength, hPrefix, hTook⟩
  · rintro ⟨hWellFormed, hTook⟩
    obtain ⟨opcode, payload⟩ := chunk
    obtain ⟨afterOpcode, hOpcode, hRest⟩ := (Cursor.took_append_iff _ [opcode] _ _).1 hTook
    refine ⟨opcode, afterOpcode, byte_ok_iff.2 hOpcode, bind_ok_iff.2 ?_⟩
    cases payload with
    | none =>
      obtain rfl := (Cursor.took_nil_iff _ _).1 hRest
      have hPush := wellFormed_none_iff.1 hWellFormed
      exact ⟨none, afterOpcode, payloadLength_none_iff.2 ⟨hPush, rfl⟩, pure_ok_iff.2 ⟨rfl, rfl⟩⟩
    | some data =>
      obtain ⟨afterLength, hPrefix, hData⟩ := (Cursor.took_append_iff _ _ _ _).1 hRest
      obtain ⟨hPush, hLength⟩ := wellFormed_some_iff.1 hWellFormed
      refine ⟨some data.length, afterLength, payloadLength_of_took hPush hLength hPrefix, ?_⟩
      exact bind_ok_iff.2 ⟨data, stop, bytesOr_ok_iff.2 ⟨rfl, hData⟩,
        ofExcept_ok_iff.2 ⟨hWellFormed, rfl⟩⟩

/-! ## Making chunks -/

/-- The chunk of an opcode that pushes no payload is well-formed. -/
theorem wellFormed_ofOpcode {op : Opcode} (h : Opcode.isPushData op.toByte = false) :
    (ofOpcode op).WellFormed :=
  wellFormed_none_iff.2 h

/-- A chunk can be chosen for every payload whose length is a number of 32 bits. -/
theorem exists_ofData {data : Bytes} (h : data.length ≤ 0xffffffff) :
    ∃ chunk, ofData data = .ok chunk := by
  unfold ofData
  split_ifs
  · exact ⟨_, rfl⟩
  · exact ⟨_, rfl⟩
  · exact ⟨_, rfl⟩

/-- The chunk that is chosen for a payload pushes it. -/
theorem payload_of_ofData {data : Bytes} {chunk : Chunk} (h : ofData data = .ok chunk) :
    chunk.payload = some data := by
  unfold ofData at h
  split_ifs at h
  · rw [← Except.ok.inj h]
  · rw [← Except.ok.inj h]
  · rw [← Except.ok.inj h]

/-- The chunk that is chosen for a payload is well-formed: the payload is too long for the counted
push before the chosen one. -/
theorem wellFormed_of_ofData {data : Bytes} {chunk : Chunk} (h : ofData data = .ok chunk) :
    chunk.WellFormed := by
  have hOpcode : ∀ op : Opcode, Opcode.ofByte? op.toByte = some op := Opcode.ofByte?_toByte
  unfold ofData at h
  split_ifs at h with hOne hTwo hFour
  · rw [← Except.ok.inj h, wellFormed_some_iff]
    refine ⟨rfl, ?_⟩
    simp [checkLength, hOpcode, hOne]
  · rw [← Except.ok.inj h, wellFormed_some_iff]
    refine ⟨rfl, ?_⟩
    simp [checkLength, hOpcode, hOne, hTwo]
  · rw [← Except.ok.inj h, wellFormed_some_iff]
    refine ⟨rfl, ?_⟩
    simp [checkLength, hOpcode, hTwo, hFour]

/-- The chunk that pushes a number is well-formed. -/
theorem wellFormed_of_ofNumber {number : Int} {chunk : Chunk} (h : ofNumber number = .ok chunk) :
    chunk.WellFormed := by
  unfold ofNumber at h
  by_cases hNegative : number = -1
  · rw [if_pos hNegative] at h
    rw [← Except.ok.inj h]
    exact wellFormed_ofOpcode rfl
  · rw [if_neg hNegative] at h
    split at h
    · rename_i op hSmall
      rw [← Except.ok.inj h]
      refine wellFormed_ofOpcode ?_
      split_ifs at hSmall with hSign
      exact Opcode.isPushData_of_ofSmallInt? hSmall
    · exact wellFormed_of_ofData h

/-- The chunk that a word writes is well-formed. -/
theorem wellFormed_of_ofText {word : String} {chunk : Chunk} (h : ofText word = .ok chunk) :
    chunk.WellFormed := by
  unfold ofText at h
  split at h
  · obtain ⟨data, -, hData⟩ := bind_eq_ok_iff.1 h
    exact wellFormed_of_ofData hData
  · split at h
    · exact absurd h (by simp)
    · split_ifs at h with hLiteral
      -- What is left is an opcode that was written by its name.
      rw [← Except.ok.inj h]
      exact wellFormed_ofOpcode (by simpa using hLiteral)

/-- The ways in which chunks are made: from parts, for a payload or a number, and by reading. -/
inductive Made (chunk : Chunk) : Prop
  /-- From an opcode byte and a payload that are checked against each other. -/
  | parts (opcode : UInt8) (payload : Option Bytes) (h : ofParts opcode payload = .ok chunk)
  /-- For a payload, by the shortest counted push. -/
  | data (data : Bytes) (h : ofData data = .ok chunk)
  /-- For a number. -/
  | number (number : Int) (h : ofNumber number = .ok chunk)
  /-- From a word of a text. -/
  | text (word : String) (h : ofText word = .ok chunk)
  /-- From the bytes at a cursor. -/
  | read (start stop : Cursor) (h : decoder start = .ok chunk stop)

/-- Every chunk that is made is well-formed. -/
theorem Made.wellFormed {chunk : Chunk} (h : chunk.Made) : chunk.WellFormed := by
  cases h with
  | parts opcode payload h => exact (ofParts_eq_ok_iff.1 h).2
  | data data h => exact wellFormed_of_ofData h
  | number number h => exact wellFormed_of_ofNumber h
  | text word h => exact wellFormed_of_ofText h
  | read start stop h => exact ((inverts_decoder _ _ _).1 h).1

end Chunk

namespace Script

/-- Every chunk of the script is well-formed, and the length of the script is a number of 64 bits. -/
structure WellFormed (script : Script) : Prop where
  /-- Every opcode suits its payload. -/
  chunks : ∀ chunk ∈ script.chunks, chunk.WellFormed
  /-- The script can stand after its length. -/
  length_lt : script.encode.length < 2 ^ 64

instance : DecidablePred WellFormed := fun script =>
  decidable_of_iff
    ((∀ chunk ∈ script.chunks, chunk.WellFormed) ∧ script.encode.length < 2 ^ 64)
    ⟨fun h => ⟨h.1, h.2⟩, fun h => ⟨h.chunks, h.length_lt⟩⟩

/-- After a chunk less is left than before. -/
theorem rest_length_le_of_took {chunk : Chunk} {limit : Nat} {start stop : Cursor}
    (hTook : start.Took chunk.encode stop) (hLimit : start.rest.length ≤ limit + 1) :
    stop.rest.length ≤ limit := by
  rw [hTook.rest_eq, List.length_append, Chunk.encode, List.length_cons] at hLimit
  omega

/-- Where nothing is left, only the empty list of chunks is there. -/
theorem pure_nil_ok_iff {chunks : List Chunk} {start stop : Cursor} (hEnd : start.rest = []) :
    (pure [] : Decoder (List Chunk)) start = .ok chunks stop ↔
      (∀ chunk ∈ chunks, chunk.WellFormed) ∧ start.Took (chunks.flatMap Chunk.encode) stop ∧
        stop.rest = [] := by
  rw [pure_ok_iff]
  constructor
  · rintro ⟨rfl, rfl⟩
    simp [hEnd]
  · rintro ⟨-, hTook, -⟩
    cases chunks with
    | nil => exact ⟨rfl, (Cursor.took_nil_iff _ _).1 hTook⟩
    | cons chunk chunks =>
      have hRest := hTook.rest_eq
      simp [hEnd, Chunk.encode] at hRest

/-- Chunks are read up to the end of the input, if there are not more of them than the limit. -/
theorem chunksUpTo_ok_iff {limit : Nat} {chunks : List Chunk} {start stop : Cursor}
    (hLimit : start.rest.length ≤ limit) :
    chunksUpTo limit start = .ok chunks stop ↔
      (∀ chunk ∈ chunks, chunk.WellFormed) ∧ start.Took (chunks.flatMap Chunk.encode) stop ∧
        stop.rest = [] := by
  -- Every chunk has an opcode byte, so the limit counts down no faster than the input.
  induction limit generalizing start chunks with
  | zero => exact pure_nil_ok_iff (List.eq_nil_of_length_eq_zero (Nat.le_zero.1 hLimit))
  | succ limit ih =>
    have hAtEnd : atEnd start = .ok start.rest.isEmpty start := rfl
    unfold chunksUpTo
    rw [bind_ok_iff]
    by_cases hEnd : start.rest = []
    · rw [← pure_nil_ok_iff hEnd]
      simp [hAtEnd, hEnd]
    · have hMore : start.rest.isEmpty = false := by simpa using hEnd
      constructor
      · rintro ⟨_, _, hCursor, h⟩
        obtain ⟨rfl, rfl⟩ := EStateM.Result.ok.inj (hAtEnd.symm.trans hCursor)
        rw [hMore, if_neg (by decide)] at h
        obtain ⟨chunk, middle, hChunk, h⟩ := bind_ok_iff.1 h
        obtain ⟨others, _, hOthers, h⟩ := bind_ok_iff.1 h
        obtain ⟨rfl, rfl⟩ := pure_ok_iff.1 h
        obtain ⟨hWellFormed, hFirst⟩ := (Chunk.inverts_decoder _ _ _).1 hChunk
        obtain ⟨hAll, hTook, hStop⟩ := (ih (rest_length_le_of_took hFirst hLimit)).1 hOthers
        refine ⟨List.forall_mem_cons.2 ⟨hWellFormed, hAll⟩, ?_, hStop⟩
        exact (Cursor.took_append_iff _ _ _ _).2 ⟨middle, hFirst, hTook⟩
      · rintro ⟨hAll, hTook, hStop⟩
        refine ⟨_, _, hAtEnd, ?_⟩
        rw [hMore, if_neg (by decide)]
        cases chunks with
        | nil =>
          obtain rfl := (Cursor.took_nil_iff _ _).1 hTook
          exact absurd hStop hEnd
        | cons chunk others =>
          obtain ⟨hWellFormed, hAll⟩ := List.forall_mem_cons.1 hAll
          obtain ⟨middle, hFirst, hOthers⟩ := (Cursor.took_append_iff _ _ _ _).1 hTook
          have hChunk := (Chunk.inverts_decoder _ _ _).2 ⟨hWellFormed, hFirst⟩
          refine bind_ok_iff.2 ⟨chunk, middle, hChunk, bind_ok_iff.2 ⟨others, stop, ?_, ?_⟩⟩
          · exact (ih (rest_length_le_of_took hFirst hLimit)).2 ⟨hAll, hOthers, hStop⟩
          · exact pure_ok_iff.2 ⟨rfl, rfl⟩

/-- A script is read where its well-formed chunks are all that is left. -/
theorem decoder_ok_iff {script : Script} {start stop : Cursor} :
    decoder start = .ok script stop ↔
      (∀ chunk ∈ script.chunks, chunk.WellFormed) ∧ start.Took script.encode stop ∧
        stop.rest = [] := by
  have hRemaining : remaining start = .ok start.rest.length start := rfl
  unfold decoder
  simp only [bind_ok_iff, pure_ok_iff]
  constructor
  · rintro ⟨_, _, hLength, chunks, _, hChunks, rfl, rfl⟩
    obtain ⟨rfl, rfl⟩ := EStateM.Result.ok.inj (hRemaining.symm.trans hLength)
    exact (chunksUpTo_ok_iff (Nat.le_refl _)).1 hChunks
  · intro h
    exact ⟨_, _, hRemaining, script.chunks, stop, (chunksUpTo_ok_iff (Nat.le_refl _)).2 h, rfl, rfl⟩

/-- A whole byte string is a script exactly where it is the encoding of its well-formed chunks. -/
theorem ofBytes_eq_ok_iff {bytes : Bytes} {script : Script} :
    ofBytes bytes = .ok script ↔
      (∀ chunk ∈ script.chunks, chunk.WellFormed) ∧ bytes = script.encode := by
  change decodeAll decoder bytes = .ok script ↔ _
  rw [decodeAll_eq_ok_iff_exists]
  simp only [decoder_ok_iff]
  constructor
  · rintro ⟨stop, ⟨hAll, hTook, -⟩, hEnd⟩
    exact ⟨hAll, hTook.eq_of_rest_eq_nil hEnd⟩
  · rintro ⟨hAll, hBytes⟩
    refine ⟨⟨script.encode.length, []⟩, ⟨hAll, ⟨?_, (Nat.zero_add _).symm⟩, rfl⟩, rfl⟩
    rw [List.append_nil]
    exact hBytes

end Script

end UtxoChain
