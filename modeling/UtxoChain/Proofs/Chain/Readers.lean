import UtxoChain.Chain.Block
import UtxoChain.Proofs.Script.Reading
import UtxoChain.Proofs.Wire.Advance
import UtxoChain.Tx.Format

/-!
# Readers keep their place

A reader of a byte string is asked for one thing after the other, and goes on from where it stands
whether or not it was given the last (`Read.readAll`). All reads advance (`Read.advances_decoder`), so
wherever it has got to, it is within the string, and may be asked for anything (`Read.keepsPlace`).

A chunk takes at least its opcode byte. So a script is read by a loop that comes to an end on every
input (`Script.exists_readsChunks`), and a bound on the number of chunks that is no smaller than the
number of bytes is never met.
-/

namespace UtxoChain

open Decoder Stateful

/-! ## Chunks and scripts -/

namespace Chunk

/-- The length of a payload advances. -/
theorem advances_payloadLength (opcode : UInt8) : (payloadLength opcode).Advances := by
  rcases lengthForm opcode with ⟨-, hRead, -, -⟩ | ⟨width, -, hRead, -, -⟩ | ⟨-, hRead⟩
  · rw [hRead]
    exact advances_pure _
  · rw [hRead]
    exact (advances_natBE width).map some
  · rw [hRead]
    exact advances_pure _

/-- A chunk advances. -/
theorem advances_decoder : decoder.Advances := by
  refine advances_byte.bind fun opcode => (advances_payloadLength opcode).bind fun length? => ?_
  cases length? with
  | none => exact advances_pure _
  | some length => exact (advances_bytesOr _ length).bind fun _ => advances_ofExcept _

/-- A chunk that is read has taken its opcode byte at least. -/
theorem pos_lt_of_decoder {start stop : Cursor} {chunk : Chunk}
    (h : decoder start = .ok chunk stop) : start.pos < stop.pos := by
  have hPos := ((inverts_decoder _ _ _).1 h).2.pos_eq
  have hBytes : 0 < chunk.encode.length := by
    rw [encode, List.length_cons]
    exact Nat.succ_pos _
  omega

end Chunk

namespace Script

/-- The loop that reads chunks one after the other, until nothing is left or a chunk is refused. -/
inductive ReadsChunks : Cursor → Except Error (List Chunk) → Cursor → Prop
  /-- Nothing is left. -/
  | done {start : Cursor} (hEnd : start.rest = []) : ReadsChunks start (.ok []) start
  /-- A chunk is refused. -/
  | refused {start stop : Cursor} {fault : Error} (hMore : start.rest ≠ [])
      (hChunk : Chunk.decoder start = .error fault stop) : ReadsChunks start (.error fault) stop
  /-- A chunk is read, and the loop goes on behind it. -/
  | next {start middle stop : Cursor} {chunk : Chunk} {result : Except Error (List Chunk)}
      (hMore : start.rest ≠ []) (hChunk : Chunk.decoder start = .ok chunk middle)
      (hRest : ReadsChunks middle result stop) :
      ReadsChunks start (result.map (chunk :: ·)) stop

/-- The loop comes to an end on every input: what is left gets shorter with every chunk. -/
theorem exists_readsChunks (start : Cursor) : ∃ result stop, ReadsChunks start result stop := by
  induction hLength : start.rest.length using Nat.strongRecOn generalizing start with
  | ind length ih =>
    by_cases hEnd : start.rest = []
    · exact ⟨_, _, .done hEnd⟩
    · cases hChunk : Chunk.decoder start with
      | error fault stop => exact ⟨_, _, .refused hEnd hChunk⟩
      | ok chunk middle =>
        have hTook := ((Chunk.inverts_decoder _ _ _).1 hChunk).2
        have hPos := Nat.pos_of_ne_zero (mt List.length_eq_zero_iff.1 hEnd)
        have hLess : middle.rest.length ≤ start.rest.length - 1 :=
          rest_length_le_of_took hTook (by omega)
        obtain ⟨result, stop, hRest⟩ := ih middle.rest.length (by omega) middle rfl
        exact ⟨_, _, .next hEnd hChunk hRest⟩

/-- Where nothing is left, no chunks are read, whatever the limit. -/
theorem chunksUpTo_of_end {start : Cursor} (hEnd : start.rest = []) (limit : Nat) :
    chunksUpTo limit start = .ok [] start := by
  cases limit with
  | zero => rfl
  | succ limit =>
    have hAtEnd : atEnd start = .ok true start := by
      rw [atEnd, hEnd]
      rfl
    exact bind_of_ok hAtEnd

/-- Where something is left, a chunk is read first, and then those behind it. -/
theorem chunksUpTo_of_more {start : Cursor} (hMore : start.rest ≠ []) (limit : Nat) :
    chunksUpTo (limit + 1) start =
      (do
        let chunk ← Chunk.decoder
        let others ← chunksUpTo limit
        return chunk :: others : Decoder (List Chunk)) start := by
  have hAtEnd : atEnd start = .ok false start := by
    have hEmpty : start.rest.isEmpty = false := by simpa using hMore
    rw [atEnd, hEmpty]
  exact bind_of_ok hAtEnd

/-- Chunks up to a limit are those that the loop reads, if the limit is not below the number of bytes
that are left. -/
theorem ReadsChunks.chunksUpTo_eq {start stop : Cursor} {result : Except Error (List Chunk)}
    (h : ReadsChunks start result stop) {limit : Nat} (hLimit : start.rest.length ≤ limit) :
    (chunksUpTo limit).runAt start = (result, stop) := by
  induction h generalizing limit with
  | done hEnd => exact runAt_eq_ok_iff.2 (chunksUpTo_of_end hEnd limit)
  | @refused start stop fault hMore hChunk =>
    have hPos := List.length_pos_iff.2 hMore
    obtain ⟨limit, rfl⟩ := Nat.exists_eq_add_of_lt (Nat.lt_of_lt_of_le hPos hLimit)
    rw [Nat.zero_add]
    refine runAt_eq_error_iff.2 ?_
    rw [chunksUpTo_of_more hMore, bind_of_error hChunk]
  | @next start middle stop chunk result hMore hChunk _ ih =>
    have hPos := List.length_pos_iff.2 hMore
    obtain ⟨limit, rfl⟩ := Nat.exists_eq_add_of_lt (Nat.lt_of_lt_of_le hPos hLimit)
    rw [Nat.zero_add] at hLimit ⊢
    have hTook := ((Chunk.inverts_decoder _ _ _).1 hChunk).2
    have hOthers := ih (rest_length_le_of_took hTook hLimit)
    cases result with
    | ok chunks =>
      refine runAt_eq_ok_iff.2 ?_
      rw [chunksUpTo_of_more hMore, bind_of_ok hChunk, bind_of_ok (runAt_eq_ok_iff.1 hOthers)]
      rfl
    | error fault =>
      refine runAt_eq_error_iff.2 ?_
      rw [chunksUpTo_of_more hMore, bind_of_ok hChunk, bind_of_error (runAt_eq_error_iff.1 hOthers)]

/-- A script is what the loop reads. -/
theorem ReadsChunks.decoder_eq {start stop : Cursor} {result : Except Error (List Chunk)}
    (h : ReadsChunks start result stop) :
    decoder.runAt start = (result.map Script.mk, stop) := by
  have hRemaining : remaining start = .ok start.rest.length start := rfl
  have hChunks := h.chunksUpTo_eq (Nat.le_refl _)
  cases result with
  | ok chunks =>
    refine runAt_eq_ok_iff.2 ?_
    rw [decoder, bind_of_ok hRemaining, bind_of_ok (runAt_eq_ok_iff.1 hChunks)]
    rfl
  | error fault =>
    refine runAt_eq_error_iff.2 ?_
    rw [decoder, bind_of_ok hRemaining, bind_of_error (runAt_eq_error_iff.1 hChunks)]

/-- Chunks up to a limit advance. -/
theorem advances_chunksUpTo (limit : Nat) : (chunksUpTo limit).Advances := by
  induction limit with
  | zero => exact advances_pure []
  | succ limit ih =>
    have hAtEnd : atEnd.Advances := advances_of_leaves_eq fun _ => rfl
    refine hAtEnd.bind fun isEnd => ?_
    split_ifs
    · exact advances_pure []
    · exact Chunk.advances_decoder.bind fun _ => ih.bind fun _ => advances_pure _

/-- A script advances. -/
theorem advances_decoder : decoder.Advances := by
  have hRemaining : remaining.Advances := advances_of_leaves_eq fun _ => rfl
  exact hRemaining.bind fun limit => (advances_chunksUpTo limit).bind fun _ => advances_pure _

/-- A script after its length advances. -/
theorem advances_countedDecoder : countedDecoder.Advances :=
  advances_countedBytes.bind fun _ => advances_ofExcept _

end Script

/-! ## Transactions and blocks -/

/-- An outpoint advances. -/
theorem OutPoint.advances_decoder : decoder.Advances :=
  (advances_fixed 32).bind fun _ => advances_word32.bind fun _ => advances_pure _

/-- An input advances. -/
theorem TxIn.advances_decoder : decoder.Advances := by
  refine OutPoint.advances_decoder.bind fun _ => ?_
  exact Script.advances_countedDecoder.bind fun _ => advances_word32.bind fun _ => advances_pure _

/-- An output advances. -/
theorem TxOut.advances_decoder : decoder.Advances :=
  advances_word64.bind fun _ => Script.advances_countedDecoder.bind fun _ => advances_pure _

/-- A transaction advances. -/
theorem Tx.advances_decoder : decoder.Advances := by
  refine advances_byte.bind fun _ => (advances_counted TxIn.advances_decoder).bind fun _ => ?_
  refine (advances_counted TxOut.advances_decoder).bind fun _ => ?_
  exact advances_word32.bind fun _ => advances_pure _

/-- A header advances. -/
theorem BlockHeader.advances_decoder : decoder.Advances := by
  refine advances_word32.bind fun _ => (advances_fixed 32).bind fun _ => ?_
  refine (advances_fixed 32).bind fun _ => advances_word64.bind fun _ => ?_
  refine (advances_fixed 32).bind fun _ => (advances_fixed 32).bind fun _ => ?_
  exact advances_word64.bind fun _ => advances_pure _

/-- A block advances. -/
theorem Block.advances_decoder : decoder.Advances :=
  BlockHeader.advances_decoder.bind fun _ =>
    (advances_counted Tx.advances_decoder).bind fun _ => advances_pure _

/-! ## Readers -/

/-- What a reader may be asked for. -/
inductive Read
  /-- As many bytes as are named. -/
  | bytes (size : Nat)
  /-- A string of fixed width. -/
  | fixed (width : Nat)
  /-- A byte. -/
  | byte
  /-- A word of 32 bits. -/
  | word32
  /-- A word of 64 bits. -/
  | word64
  /-- A number of some bytes, the highest first. -/
  | natBE (width : Nat)
  /-- A number of some bytes, the lowest first. -/
  | natLE (width : Nat)
  /-- A variable-length integer. -/
  | varInt
  /-- A count. -/
  | count
  /-- A byte string after its length. -/
  | countedBytes
  /-- A chunk. -/
  | chunk
  /-- The script that takes up what is left. -/
  | script
  /-- An input. -/
  | input
  /-- An output. -/
  | output
  /-- A transaction. -/
  | tx
  /-- A header. -/
  | header
  /-- A block. -/
  | block

namespace Read

/-- The type of what is asked for. -/
def Value : Read → Type
  | .bytes _ | .countedBytes => Bytes
  | .fixed width => FixedBytes width
  | .byte => UInt8
  | .word32 => UInt32
  | .word64 | .varInt => UInt64
  | .natBE _ | .natLE _ | .count => Nat
  | .chunk => Chunk
  | .script => Script
  | .input => TxIn
  | .output => TxOut
  | .tx => Tx
  | .header => BlockHeader
  | .block => Block

/-- The decoder of what is asked for. -/
def decoder : (read : Read) → Decoder read.Value
  | .bytes size => Decoder.bytes size
  | .fixed width => Decoder.fixed width
  | .byte => Decoder.byte
  | .word32 => Decoder.word32
  | .word64 => Decoder.word64
  | .natBE width => Decoder.natBE width
  | .natLE width => Decoder.natLE width
  | .varInt => VarInt.decoder
  | .count => Decoder.count
  | .countedBytes => Decoder.countedBytes
  | .chunk => Chunk.decoder
  | .script => Script.decoder
  | .input => TxIn.decoder
  | .output => TxOut.decoder
  | .tx => Tx.decoder
  | .header => BlockHeader.decoder
  | .block => Block.decoder

/-- How many bytes are asked for, if that is known in advance. -/
def width? : Read → Option Nat
  | .bytes size => some size
  | .fixed width | .natBE width | .natLE width => some width
  | .byte => some 1
  | .word32 => some 4
  | .word64 => some 8
  | _ => none

/-- Where a reader stands that has been asked for one thing after the other, and given some of them. -/
def readAll (reads : List Read) (start : Cursor) : Cursor :=
  reads.foldl (fun cursor read => read.decoder.leaves cursor) start

/-- Every read advances. -/
theorem advances_decoder (read : Read) : read.decoder.Advances := by
  cases read with
  | bytes size => exact advances_bytes size
  | fixed width => exact advances_fixed width
  | byte => exact advances_byte
  | word32 => exact advances_word32
  | word64 => exact advances_word64
  | natBE width => exact advances_natBE width
  | natLE width => exact advances_natLE width
  | varInt => exact advances_varInt
  | count => exact advances_count
  | countedBytes => exact advances_countedBytes
  | chunk => exact Chunk.advances_decoder
  | script => exact Script.advances_decoder
  | input => exact TxIn.advances_decoder
  | output => exact TxOut.advances_decoder
  | tx => exact Tx.advances_decoder
  | header => exact BlockHeader.advances_decoder
  | block => exact Block.advances_decoder

/-- A read of a known number of bytes fails in place. -/
theorem failsInPlace_decoder {read : Read} (h : read.width?.isSome = true) :
    read.decoder.FailsInPlace := by
  cases read with
  | bytes size => exact failsInPlace_bytes size
  | fixed width => exact failsInPlace_fixed width
  | byte => exact (failsInPlace_natBE 1).map _
  | word32 => exact (failsInPlace_natBE 4).map _
  | word64 => exact (failsInPlace_natBE 8).map _
  | natBE width => exact failsInPlace_natBE width
  | natLE width => exact failsInPlace_natLE width
  | _ => exact absurd h (by decide)

/-- What a reader may rely on at a cursor of a byte string. -/
structure SafeAt (data : Bytes) (cursor : Cursor) : Prop where
  /-- The cursor is within the string, so what remains is the distance to the end. -/
  within : cursor.Within data ∧ cursor.pos + cursor.remaining = data.length
  /-- Some bytes are the slice that starts at the cursor, and they are there exactly if the slice is
  within the string. -/
  bytes_eq : ∀ count, Decoder.bytes count cursor =
    if cursor.pos + count ≤ data.length then
      .ok ((data.drop cursor.pos).take count) ⟨cursor.pos + count, data.drop (cursor.pos + count)⟩
    else .error (.notEnoughData count (data.length - cursor.pos)) cursor
  /-- Whatever is asked for, and whether or not it is given, the cursor is not moved back, and not out
  of the string. -/
  forward : ∀ read : Read, cursor.pos ≤ (read.decoder.leaves cursor).pos ∧
    (read.decoder.leaves cursor).Within data
  /-- Where a known number of bytes is asked for and not given, the cursor is not moved at all. -/
  in_place : ∀ read : Read, read.width?.isSome = true →
    ∀ fault stop, read.decoder cursor = .error fault stop → stop = cursor
  /-- A chunk that is given takes a byte at least. -/
  chunk_lt : ∀ chunk stop, Chunk.decoder cursor = .ok chunk stop → cursor.pos + 1 ≤ stop.pos
  /-- The loop that reads chunks comes to an end. -/
  loop_ends : ∃ result stop, Script.ReadsChunks cursor result stop
  /-- A script is what the loop ends with. -/
  script_eq : ∀ result stop, Script.ReadsChunks cursor result stop →
    Script.decoder.runAt cursor = (result.map Script.mk, stop)
  /-- A byte string is refused for its size exactly where its length has been read and nothing behind
  it, and fewer bytes remain. -/
  past_length : ∀ fault stop, Decoder.countedBytes cursor = .error (.invalidSize fault) stop ↔
    ∃ length : UInt64, cursor.Took (VarInt.encode length) stop ∧ stop.remaining < length.toNat ∧
      fault = .declaredLength length.toNat stop.remaining

/-- A reader that has been asked for one thing after the other is within its string. -/
theorem within_readAll (data : Bytes) (reads : List Read) :
    (readAll reads (.ofBytes data)).Within data := by
  induction reads using List.reverseRecOn with
  | nil => exact Cursor.within_ofBytes data
  | append_singleton reads read ih =>
    obtain ⟨taken, hTook⟩ := read.advances_decoder (readAll reads (.ofBytes data))
    rw [readAll, List.foldl_append]
    exact hTook.within ih

/-- Readers keep their place. Whatever a reader of a byte string has been asked for, one thing after the
other, and whatever became of it, the position is not past the end, and the bytes before it are those
that have been taken. Going on from there is safe. -/
theorem keepsPlace (data : Bytes) (reads : List Read) :
    SafeAt data (readAll reads (.ofBytes data)) := by
  have hWithin := within_readAll data reads
  generalize readAll reads (.ofBytes data) = cursor at hWithin
  have hRemaining := hWithin.remaining_eq
  have hPos := hWithin.pos_le
  refine
    { within := ⟨hWithin, by omega⟩
      bytes_eq := fun count => bytesOr_within hWithin _ count
      forward := fun read => ?_
      in_place := fun read hWidth => failsInPlace_decoder hWidth cursor
      chunk_lt := fun chunk stop hChunk => Chunk.pos_lt_of_decoder hChunk
      loop_ends := Script.exists_readsChunks cursor
      script_eq := fun result stop hLoop => hLoop.decoder_eq
      past_length := fun fault stop => countedBytes_invalidSize_iff }
  obtain ⟨taken, hTook⟩ := read.advances_decoder cursor
  exact ⟨hTook.pos_le, hTook.within hWithin⟩

-- Three bytes are declared and two are there: the length has been taken, and the byte behind it is next.
example : readAll [.countedBytes, .word32, .byte] (.ofBytes [3, 1, 2]) = ⟨2, [2]⟩ := by decide

end Read

end UtxoChain
