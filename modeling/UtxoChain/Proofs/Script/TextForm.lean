import UtxoChain.Proofs.Bytes.Hex
import UtxoChain.Proofs.Machine.Sight
import UtxoChain.Proofs.Script.Reading

/-!
# The text of a script

The words of a text are read one by one, so what is printed with one space between the chunks is read
back chunk by chunk (`Text.words_intercalate`). The text of a chunk tells its payload or the name of its
opcode, but not which push opcode stood there: reading chooses the shortest counted push. A well-formed
chunk has that one already, unless it is a direct push (`Chunk.ofData_of_wellFormed`). Which push opcode
it is makes no difference to a run, except by the bytes to which signatures commit.
-/

namespace UtxoChain

/-! ## Words -/

namespace Text

/-- A word has characters, and none of them is blank. -/
structure IsWord (word : List Char) : Prop where
  /-- There is a character. -/
  ne_nil : word ≠ []
  /-- No character is blank. -/
  not_blank : ∀ c ∈ word, isBlank c = false

-- The characters of the word are looked at, not all characters there are.
instance (word : List Char) : Decidable (IsWord word) :=
  decidable_of_iff (word ≠ [] ∧ word.all (fun c => !isBlank c) = true)
    ⟨fun h => ⟨h.1, by simpa using h.2⟩, fun h => ⟨h.ne_nil, by simpa using h.not_blank⟩⟩

/-- Characters that are not blank are collected in the word under way. -/
theorem wordsFrom_append {word : List Char} (h : ∀ c ∈ word, isBlank c = false)
    (current rest : List Char) :
    wordsFrom current (word ++ rest) = wordsFrom (word.reverse ++ current) rest := by
  induction word generalizing current with
  | nil => rfl
  | cons c word ih =>
    obtain ⟨hFirst, hOthers⟩ := List.forall_mem_cons.1 h
    rw [List.cons_append, wordsFrom, hFirst, if_neg (by decide), ih hOthers, List.reverse_cons,
      List.append_assoc, List.singleton_append]

/-- A word that is under way ends where the text does. -/
theorem endWord_reverse {word : List Char} (h : word ≠ []) (later : List (List Char)) :
    endWord word.reverse later = word :: later := by
  rw [endWord, if_neg (by simpa using h), List.reverse_reverse]

/-- Words with one space between them are taken apart again. -/
theorem wordsFrom_intercalate {words : List (List Char)} (h : ∀ word ∈ words, IsWord word) :
    wordsFrom [] (List.intercalate [' '] words) = words := by
  induction words with
  | nil => rfl
  | cons word words ih =>
    obtain ⟨hFirst, hOthers⟩ := List.forall_mem_cons.1 h
    cases words with
    | nil =>
      have hCollect := wordsFrom_append hFirst.not_blank [] []
      rw [List.append_nil, List.append_nil] at hCollect
      rw [List.intercalate_singleton, hCollect, wordsFrom, endWord_reverse hFirst.ne_nil]
    | cons second rest =>
      have hSpace : isBlank ' ' = true := by decide
      rw [List.intercalate_cons_cons, List.append_assoc, wordsFrom_append hFirst.not_blank,
        List.append_nil, List.singleton_append, wordsFrom, hSpace, if_pos rfl,
        endWord_reverse hFirst.ne_nil, ih hOthers]

/-- Texts that are words are read back where they are printed with one space between them. -/
theorem words_intercalate {texts : List String} (h : ∀ text ∈ texts, IsWord text.toList) :
    words (String.intercalate " " texts) = texts := by
  have hSpace : " ".toList = [' '] := rfl
  have hWords : ∀ word ∈ texts.map String.toList, IsWord word := by
    intro word hWord
    obtain ⟨text, hText, rfl⟩ := List.mem_map.1 hWord
    exact h text hText
  rw [words, String.toList_intercalate, hSpace, wordsFrom_intercalate hWords, List.map_map]
  simp [Function.comp_def]

/-- A word goes on with characters that are not blank. -/
theorem IsWord.append {word more : List Char} (h : IsWord word)
    (hMore : ∀ c ∈ more, isBlank c = false) : IsWord (word ++ more) where
  ne_nil := List.append_ne_nil_of_left_ne_nil h.ne_nil more
  not_blank := List.forall_mem_append.2 ⟨h.not_blank, hMore⟩

/-- The text of bytes has no blank. -/
theorem isBlank_digits (bytes : Bytes) : ∀ c ∈ bytes.flatMap Hex.digits, isBlank c = false := by
  have hDigit : ∀ n : UInt8, n < 16 → isBlank (Hex.digit n) = false := by
    intro n hSmall
    have table : ∀ n : Fin 16, isBlank (Hex.digit (UInt8.ofNat n)) = false := by decide
    have hRow := table ⟨n.toNat, hSmall⟩
    rwa [UInt8.ofNat_toNat] at hRow
  intro c hMem
  obtain ⟨byte, -, hDigits⟩ := List.mem_flatMap.1 hMem
  obtain ⟨hHigh, hLow⟩ := Hex.nibbles_lt byte
  rw [Hex.digits, List.mem_cons, List.mem_singleton] at hDigits
  rcases hDigits with rfl | rfl
  · exact hDigit _ hHigh
  · exact hDigit _ hLow

end Text

/-! ## The text of a chunk -/

/-- The text of bytes is the digits of each of them. -/
theorem Hex.toList_encode (bytes : Bytes) : (encode bytes).toList = bytes.flatMap digits :=
  String.toList_ofList

/-- The names of opcodes are words, are told from literals by their first characters, and from the
text of unknown bytes by the first. -/
theorem Opcode.name_facts (op : Opcode) :
    Text.IsWord op.name.toList ∧ op.name.toList.take 2 ≠ ['0', 'x'] ∧
      op.name.toList.head? ≠ some 'U' := by
  have table : ∀ op ∈ all, Text.IsWord op.name.toList ∧
      op.name.toList.take 2 ≠ ['0', 'x'] ∧ op.name.toList.head? ≠ some 'U' := by
    decide +kernel
  exact table op (mem_all op)

/-- The text of a byte that writes no opcode and is no direct push. -/
theorem Opcode.toList_display_of_unknown {byte : UInt8} (hUnknown : ofByte? byte = none)
    (hDirect : isDirectPush byte = false) :
    (display byte).toList = "UNKNOWN(0x".toList ++ ([byte].flatMap Hex.digits ++ [')']) := by
  unfold display
  rw [hUnknown, hDirect]
  change ("UNKNOWN(0x" ++ Hex.encode [byte] ++ ")").toList = _
  rw [String.toList_append, String.toList_append, List.append_assoc, Hex.toList_encode]
  rfl

/-- No opcode has the text of an unknown byte for its name. -/
theorem Opcode.ofName?_eq_none_of_head? {text : String} (h : text.toList.head? = some 'U') :
    ofName? text = none := by
  rw [Option.eq_none_iff_forall_ne_some]
  intro op hOp
  rw [← name_of_ofName? hOp] at h
  exact (name_facts op).2.2 h

namespace Chunk

/-- A literal is read as the shortest counted push of its bytes. -/
theorem ofText_literal (data : Bytes) : ofText ("0x" ++ Hex.encode data) = ofData data := by
  have hChars : ("0x" ++ Hex.encode data).toList = '0' :: 'x' :: (Hex.encode data).toList := by
    rw [String.toList_append]
    rfl
  unfold ofText
  rw [hChars]
  change (bytesOfHex (String.ofList (Hex.encode data).toList) >>= ofData) = ofData data
  rw [String.ofList_toList, bytesOfHex_encode]
  rfl

/-- What is no literal is read by name. -/
theorem ofText_of_take_ne {word : String} (h : word.toList.take 2 ≠ ['0', 'x']) :
    ofText word =
      match Opcode.ofName? word with
      | none => .error (.invalidOpcode (.unknownName word))
      | some op =>
        if Opcode.isPushData op.toByte then .error (.invalidEncoding (.literalRequired word))
        else .ok (ofOpcode op) := by
  unfold ofText
  split
  · rename_i digits hChars
    exact absurd (by rw [hChars]; rfl) h
  · rfl

/-- The chunk that a chunk is read back as from its text: a counted push in place of a direct one. -/
def counted (chunk : Chunk) : Chunk :=
  if chunk.isPush && Opcode.isDirectPush chunk.opcode then
    { chunk with opcode := Opcode.pushData1.toByte }
  else chunk

/-- The payload stays. -/
theorem payload_counted (chunk : Chunk) : chunk.counted.payload = chunk.payload := by
  unfold counted
  split_ifs <;> rfl

/-- A chunk without payload stays. -/
theorem counted_of_payload_eq_none {chunk : Chunk} (h : chunk.payload = none) :
    chunk.counted = chunk := by
  rw [counted, isPush, h]
  rfl

/-- A chunk that is no direct push stays. -/
theorem counted_of_isDirectPush_eq_false {chunk : Chunk}
    (h : Opcode.isDirectPush chunk.opcode = false) : chunk.counted = chunk := by
  rw [counted, h, Bool.and_false]
  rfl

/-- A well-formed chunk without payload is no direct push. -/
theorem isDirectPush_eq_false {opcode : UInt8} (h : WellFormed ⟨opcode, none⟩) :
    Opcode.isDirectPush opcode = false := by
  have hNot := wellFormed_none_iff.1 h
  rw [← Bool.not_eq_true, Opcode.isPushData_iff, not_or, Bool.not_eq_true] at hNot
  exact hNot.1

/-- For the payload of a well-formed chunk its own push opcode is chosen, unless that is a direct
push. -/
theorem ofData_of_wellFormed {opcode : UInt8} {data : Bytes} (h : WellFormed ⟨opcode, some data⟩) :
    ofData data = .ok (counted ⟨opcode, some data⟩) := by
  obtain ⟨hPush, hLength⟩ := wellFormed_some_iff.1 h
  have hCounted : ∀ op : Opcode, Opcode.isDirectPush op.toByte = false →
      counted ⟨op.toByte, some data⟩ = ⟨op.toByte, some data⟩ :=
    fun op hNot => counted_of_isDirectPush_eq_false hNot
  unfold ofData
  rcases Opcode.isPushData_iff.1 hPush with hDirect | hOne | hTwo | hFour
  · -- A direct push is shorter than any that needs another counted push.
    have hShort : data.length ≤ 0xff := by
      have hSame : data.length = opcode.toNat := by
        simpa [checkLength, Opcode.ofByte?_eq_none_of_isDirectPush hDirect] using hLength
      have hByte := opcode.toNat_lt
      omega
    rw [if_pos hShort, counted, isPush, hDirect]
    rfl
  · obtain rfl := Opcode.toByte_of_ofByte? hOne
    have hFits : data.length ≤ 0xff := by simpa [checkLength, hOne] using hLength
    rw [if_pos hFits, hCounted _ rfl]
  · obtain rfl := Opcode.toByte_of_ofByte? hTwo
    simp only [checkLength, hTwo] at hLength
    split_ifs at hLength with hShort hFits
    have hFits : data.length ≤ 0xffff := by simpa using hFits
    rw [if_neg hShort, if_pos hFits, hCounted _ rfl]
  · obtain rfl := Opcode.toByte_of_ofByte? hFour
    simp only [checkLength, hFour] at hLength
    split_ifs at hLength with hShort hFits
    have hFits : data.length ≤ 0xffffffff := by simpa using hFits
    rw [if_neg (by omega), if_neg hShort, if_pos hFits, hCounted _ rfl]

/-- The text of a well-formed chunk is a word. -/
theorem isWord_toText {chunk : Chunk} (h : chunk.WellFormed) : Text.IsWord chunk.toText.toList := by
  obtain ⟨opcode, payload⟩ := chunk
  cases payload with
  | some data =>
    have hMark : Text.IsWord "0x".toList := by decide
    change Text.IsWord ("0x" ++ Hex.encode data).toList
    rw [String.toList_append, Hex.toList_encode]
    exact hMark.append (Text.isBlank_digits data)
  | none =>
    change Text.IsWord (Opcode.display opcode).toList
    cases hOp : Opcode.ofByte? opcode with
    | some op =>
      unfold Opcode.display
      rw [hOp]
      exact (Opcode.name_facts op).1
    | none =>
      have hMark : Text.IsWord "UNKNOWN(0x".toList := by decide
      rw [Opcode.toList_display_of_unknown hOp (isDirectPush_eq_false h)]
      refine hMark.append (List.forall_mem_append.2 ⟨Text.isBlank_digits _, ?_⟩)
      exact List.forall_mem_singleton.2 (by decide)

/-- The text of a well-formed chunk is read back, with a counted push in place of a direct one, if the
chunk has a payload or an opcode of the table. -/
theorem ofText_toText {chunk : Chunk} (h : chunk.WellFormed)
    (hNamed : chunk.payload = none → ∃ op, chunk.op? = some op) :
    ofText chunk.toText = .ok chunk.counted := by
  obtain ⟨opcode, payload⟩ := chunk
  cases payload with
  | some data =>
    change ofText ("0x" ++ Hex.encode data) = _
    rw [ofText_literal, ofData_of_wellFormed h]
  | none =>
    obtain ⟨op, hOp⟩ := hNamed rfl
    obtain rfl : op.toByte = opcode := Opcode.toByte_of_ofByte? hOp
    have hText : toText ⟨op.toByte, none⟩ = op.name := by
      change Opcode.display op.toByte = op.name
      unfold Opcode.display
      rw [Opcode.ofByte?_toByte]
    rw [hText, ofText_of_take_ne (Opcode.name_facts op).2.1, Opcode.ofName?_name,
      counted_of_payload_eq_none rfl]
    dsimp only
    rw [wellFormed_none_iff.1 h, if_neg (by decide), ofOpcode]

/-- The text of a well-formed chunk that has neither a payload nor an opcode of the table is refused as
no name. -/
theorem ofText_toText_of_unknown {chunk : Chunk} (h : chunk.WellFormed)
    (hPayload : chunk.payload = none) (hUnknown : chunk.op? = none) :
    ofText chunk.toText = .error (.invalidOpcode (.unknownName chunk.toText)) := by
  obtain ⟨opcode, payload⟩ := chunk
  obtain rfl : payload = none := hPayload
  -- The first characters are those of no literal, and the first one is that of no name.
  have hChars : (toText ⟨opcode, none⟩).toList = _ :=
    Opcode.toList_display_of_unknown hUnknown (isDirectPush_eq_false h)
  have hTake : (toText ⟨opcode, none⟩).toList.take 2 = ['U', 'N'] := by
    rw [hChars]
    rfl
  have hHead : (toText ⟨opcode, none⟩).toList.head? = some 'U' := by
    rw [hChars]
    rfl
  rw [ofText_of_take_ne (by rw [hTake]; decide), Opcode.ofName?_eq_none_of_head? hHead]

/-- What is read from a word is no direct push, and has a payload or an opcode of the table. -/
theorem plain_of_ofText {word : String} {chunk : Chunk} (h : ofText word = .ok chunk) :
    Opcode.isDirectPush chunk.opcode = false ∧
      (chunk.payload = none → ∃ op, chunk.op? = some op) := by
  have hTable : ∀ op ∈ Opcode.all, Opcode.isDirectPush op.toByte = false := by decide
  unfold ofText at h
  split at h
  · obtain ⟨data, -, hData⟩ := bind_eq_ok_iff.1 h
    have hPayload := payload_of_ofData hData
    refine ⟨?_, fun hNone => absurd (hPayload.symm.trans hNone) nofun⟩
    unfold ofData at hData
    split_ifs at hData
    · rw [← Except.ok.inj hData]
      rfl
    · rw [← Except.ok.inj hData]
      rfl
    · rw [← Except.ok.inj hData]
      rfl
  · split at h
    · exact absurd h nofun
    · rename_i op hOp
      split_ifs at h
      rw [← Except.ok.inj h]
      exact ⟨hTable op (Opcode.mem_all op), fun _ => ⟨op, Opcode.ofByte?_toByte op⟩⟩

end Chunk

/-! ## The text of a script -/

namespace Script

variable {script : Script}

/-- The text of a script of well-formed chunks is read chunk by chunk. -/
theorem ofText_toText (h : ∀ chunk ∈ script.chunks, chunk.WellFormed) :
    ofText script.toText = Script.mk <$> (script.chunks.map Chunk.toText).mapM Chunk.ofText := by
  have hWords : ∀ text ∈ script.chunks.map Chunk.toText, Text.IsWord text.toList := by
    intro text hText
    obtain ⟨chunk, hChunk, rfl⟩ := List.mem_map.1 hText
    exact Chunk.isWord_toText (h chunk hChunk)
  unfold ofText toText
  rw [Text.words_intercalate hWords, map_eq_pure_bind]

/-- The text of a script of well-formed chunks is read back, with counted pushes in place of direct
ones, if each chunk has a payload or an opcode of the table. -/
theorem ofText_toText_of_named (h : ∀ chunk ∈ script.chunks, chunk.WellFormed)
    (hNamed : ∀ chunk ∈ script.chunks, chunk.payload = none → ∃ op, chunk.op? = some op) :
    ofText script.toText = .ok ⟨script.chunks.map Chunk.counted⟩ := by
  have hEach : ∀ chunk ∈ script.chunks, Chunk.ofText chunk.toText = .ok chunk.counted :=
    fun chunk hChunk => Chunk.ofText_toText (h chunk hChunk) (hNamed chunk hChunk)
  rw [ofText_toText h, mapM_map_eq_ok hEach]
  rfl

/-- Where the text of a script of well-formed chunks is read, each chunk has a payload or an opcode of
the table. -/
theorem named_of_ofText_toText (h : ∀ chunk ∈ script.chunks, chunk.WellFormed) {read : Script}
    (hRead : ofText script.toText = .ok read) :
    ∀ chunk ∈ script.chunks, chunk.payload = none → ∃ op, chunk.op? = some op := by
  intro chunk hChunk hPayload
  rw [ofText_toText h, map_eq_pure_bind] at hRead
  obtain ⟨chunks, hChunks, -⟩ := bind_eq_ok_iff.1 hRead
  obtain ⟨result, hResult⟩ := exists_of_mapM_eq_ok hChunks (List.mem_map_of_mem hChunk)
  rw [← Option.ne_none_iff_exists']
  intro hUnknown
  rw [Chunk.ofText_toText_of_unknown (h chunk hChunk) hPayload hUnknown] at hResult
  exact absurd hResult nofun

/-- Where the text of a script of well-formed chunks is refused, it is for a chunk that has neither a
payload nor an opcode of the table. -/
theorem exists_of_ofText_toText_eq_error (h : ∀ chunk ∈ script.chunks, chunk.WellFormed)
    {error : Error} (hRefused : ofText script.toText = .error error) :
    ∃ chunk ∈ script.chunks, chunk.payload = none ∧ chunk.op? = none ∧
      error = .invalidOpcode (.unknownName chunk.toText) := by
  rw [ofText_toText h, map_eq_pure_bind] at hRefused
  rcases bind_eq_error_iff.1 hRefused with hChunks | ⟨chunks, -, hDone⟩
  · obtain ⟨text, hText, hFault⟩ := exists_of_mapM_eq_error hChunks
    obtain ⟨chunk, hChunk, rfl⟩ := List.mem_map.1 hText
    -- A chunk that is read back gives no fault.
    have hUnknown : ¬(chunk.payload = none → ∃ op, chunk.op? = some op) := by
      intro hNamed
      rw [Chunk.ofText_toText (h chunk hChunk) hNamed] at hFault
      exact absurd hFault nofun
    rw [Classical.not_imp, ← Option.ne_none_iff_exists', not_not] at hUnknown
    obtain ⟨hPayload, hOp⟩ := hUnknown
    rw [Chunk.ofText_toText_of_unknown (h chunk hChunk) hPayload hOp] at hFault
    exact ⟨chunk, hChunk, hPayload, hOp, (Except.error.inj hFault).symm⟩
  · exact absurd hDone nofun

/-- Every chunk of a script that is read from text is read from a word. -/
theorem exists_word_of_ofText {text : String} (h : ofText text = .ok script) :
    ∀ chunk ∈ script.chunks, ∃ word, Chunk.ofText word = .ok chunk := by
  obtain ⟨chunks, hChunks, hScript⟩ := bind_eq_ok_iff.1 h
  obtain rfl := Except.ok.inj hScript
  intro chunk hChunk
  obtain ⟨word, -, hWord⟩ := exists_of_mem_mapM hChunks hChunk
  exact ⟨word, hWord⟩

end Script

/-! ## Runs -/

namespace Machine

/-- Of a chunk that pushes its payload only the payload matters. -/
theorem stepChunk_counted (env : Env) (chunk : Chunk) :
    stepChunk env chunk.counted = stepChunk env chunk := by
  cases hPayload : chunk.payload with
  | none => rw [Chunk.counted_of_payload_eq_none hPayload]
  | some data =>
    unfold stepChunk
    rw [Chunk.payload_counted, hPayload]

/-- A run is the same with counted pushes in place of direct ones. -/
theorem runChunks_map_counted (env : Env) (chunks : List Chunk) :
    runChunks env (chunks.map Chunk.counted) = runChunks env chunks := by
  induction chunks with
  | nil => rfl
  | cons chunk chunks ih => rw [List.map_cons, runChunks, runChunks, stepChunk_counted, ih]

/-- Without a transaction no opcode looks at the bytes of the script. -/
theorem step_standalone_eq (scriptCode other : Bytes) (maxOps : Nat) (op : Opcode) :
    step ⟨scriptCode, none, maxOps⟩ op = step ⟨other, none, maxOps⟩ op := by
  have hCheck : checkSignature ⟨scriptCode, none, maxOps⟩ =
      checkSignature ⟨other, none, maxOps⟩ := by
    funext signature key
    unfold checkSignature Env.contextFor
    dsimp only [bind, Except.bind]
  have hLockAbs : checkLockAbs ⟨scriptCode, none, maxOps⟩ =
      checkLockAbs ⟨other, none, maxOps⟩ := rfl
  have hLockRel : checkLockRel ⟨scriptCode, none, maxOps⟩ =
      checkLockRel ⟨other, none, maxOps⟩ := rfl
  exact step_congr hCheck hLockAbs hLockRel op

/-- Without a transaction two scripts run alike that differ only in which push opcodes carry their
payloads. -/
theorem execute_standalone_eq_of_counted {script other : Script}
    (h : script.chunks.map Chunk.counted = other.chunks.map Chunk.counted) (stack : Stack)
    (maxOps : Nat) : execute script stack none maxOps = execute other stack none maxOps := by
  have hPaired : Paired ⟨script.encode, none, maxOps⟩ ⟨other.encode, none, maxOps⟩ Eq :=
    paired_eq rfl
  -- The bytes are exchanged first, and then the chunks.
  have hCode : runBalanced ⟨script.encode, none, maxOps⟩ script.chunks =
      runBalanced ⟨other.encode, none, maxOps⟩ script.chunks :=
    hPaired.runBalanced fun _ _ _ op _ => step_standalone_eq _ _ maxOps op
  have hChunks : runChunks ⟨other.encode, none, maxOps⟩ script.chunks =
      runChunks ⟨other.encode, none, maxOps⟩ other.chunks := by
    rw [← runChunks_map_counted, h, runChunks_map_counted]
  unfold execute
  rw [hCode, runBalanced, runBalanced, hChunks]

end Machine

/-! ## The text form -/

namespace Script

open Machine

/-- The text form is faithful up to direct pushes. The text of a script of well-formed chunks is read
exactly if each chunk without payload has an opcode of the table, and then gives the script with the
counted push of one length byte in place of each direct push; otherwise such a chunk is refused as no
name. What is read from a text is well-formed, has no direct push, and is read back from its text and
from its bytes. Scripts that differ only in their direct pushes run alike without a transaction. -/
theorem textForm_faithful :
    (∀ script : Script, (∀ chunk ∈ script.chunks, chunk.WellFormed) →
      ((∃ read, ofText script.toText = .ok read) ↔
        ∀ chunk ∈ script.chunks, chunk.payload = none → ∃ op, chunk.op? = some op) ∧
      (∀ read, ofText script.toText = .ok read → read = ⟨script.chunks.map Chunk.counted⟩) ∧
      ∀ error, ofText script.toText = .error error →
        ∃ chunk ∈ script.chunks, chunk.payload = none ∧ chunk.op? = none ∧
          error = .invalidOpcode (.unknownName chunk.toText)) ∧
    (∀ (text : String) (script : Script), ofText text = .ok script →
      (∀ chunk ∈ script.chunks,
        chunk.WellFormed ∧ Opcode.isDirectPush chunk.opcode = false) ∧
      ofText script.toText = .ok script ∧ ofBytes script.encode = .ok script) ∧
    ∀ script other : Script,
      script.chunks.map Chunk.counted = other.chunks.map Chunk.counted →
        ∀ (stack : Stack) (maxOps : Nat),
          execute script stack none maxOps = execute other stack none maxOps := by
  refine ⟨fun script hWellFormed => ⟨⟨?_, ?_⟩, ?_, ?_⟩, fun text script hText => ?_, ?_⟩
  · rintro ⟨read, hRead⟩
    exact named_of_ofText_toText hWellFormed hRead
  · intro hNamed
    exact ⟨_, ofText_toText_of_named hWellFormed hNamed⟩
  · intro read hRead
    have hNamed := named_of_ofText_toText hWellFormed hRead
    exact Except.ok.inj (hRead.symm.trans (ofText_toText_of_named hWellFormed hNamed))
  · intro error hRefused
    exact exists_of_ofText_toText_eq_error hWellFormed hRefused
  · have hChunks : ∀ chunk ∈ script.chunks, chunk.WellFormed ∧
        Opcode.isDirectPush chunk.opcode = false ∧
          (chunk.payload = none → ∃ op, chunk.op? = some op) := by
      intro chunk hChunk
      obtain ⟨word, hWord⟩ := exists_word_of_ofText hText chunk hChunk
      exact ⟨Chunk.wellFormed_of_ofText hWord, Chunk.plain_of_ofText hWord⟩
    have hWellFormed := fun chunk hChunk => (hChunks chunk hChunk).1
    have hSame : script.chunks.map Chunk.counted = script.chunks.map id :=
      List.map_congr_left fun chunk hChunk =>
        Chunk.counted_of_isDirectPush_eq_false (hChunks chunk hChunk).2.1
    refine ⟨fun chunk hChunk => ⟨hWellFormed chunk hChunk, (hChunks chunk hChunk).2.1⟩, ?_,
      ofBytes_eq_ok_iff.2 ⟨hWellFormed, rfl⟩⟩
    rw [ofText_toText_of_named hWellFormed fun chunk hChunk => (hChunks chunk hChunk).2.2, hSame,
      List.map_id]
  · exact fun script other hSame stack maxOps => execute_standalone_eq_of_counted hSame stack maxOps

end Script

namespace Sample

open Machine

/-- A payload after a direct push, and an opcode. -/
def directThenDup : Script :=
  ⟨[⟨0x02, some [0xaa, 0xbb]⟩, .ofOpcode .dup]⟩

/-- The same after a counted push. -/
def countedThenDup : Script :=
  ⟨[⟨Opcode.pushData1.toByte, some [0xaa, 0xbb]⟩, .ofOpcode .dup]⟩

/-- A byte that writes no opcode. -/
def unknownByte : Script :=
  ⟨[⟨0xff, none⟩]⟩

/-- The direct push is read back as a counted one, which stays; both run alike. The unknown byte is not
read back. -/
theorem ofText_toText_directThenDup :
    Script.ofText directThenDup.toText = .ok countedThenDup ∧
      Script.ofText countedThenDup.toText = .ok countedThenDup ∧
      (∀ stack maxOps, execute directThenDup stack none maxOps =
        execute countedThenDup stack none maxOps) ∧
      ¬ ∃ script, Script.ofText unknownByte.toText = .ok script := by
  obtain ⟨hPrinted, hRead, hRun⟩ := Script.textForm_faithful
  obtain ⟨hReads, hSame, -⟩ := hPrinted directThenDup (by decide)
  obtain ⟨hUnknown, -⟩ := hPrinted unknownByte (by decide)
  have hNamed : ∀ chunk ∈ directThenDup.chunks, chunk.payload = none →
      ∃ op, chunk.op? = some op :=
    List.forall_mem_cons.2 ⟨nofun, List.forall_mem_singleton.2 fun _ => ⟨.dup, rfl⟩⟩
  obtain ⟨script, hScript⟩ := hReads.2 hNamed
  obtain rfl : script = countedThenDup := hSame script hScript
  obtain ⟨-, hAgain, -⟩ := hRead _ _ hScript
  refine ⟨hScript, hAgain, hRun _ _ rfl, fun hFound => ?_⟩
  have hNone : Chunk.op? ⟨0xff, none⟩ = none := by decide
  obtain ⟨op, hOp⟩ := hUnknown.1 hFound ⟨0xff, none⟩ List.mem_cons_self rfl
  exact absurd (hNone.symm.trans hOp) nofun

end Sample

end UtxoChain
