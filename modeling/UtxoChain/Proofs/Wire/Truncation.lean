import UtxoChain.Proofs.Wire.Counted

/-!
# Decoders that run short

A decoder runs short on a byte string if it fails on every part of it that is cut off before its end,
and says that the input is too short. Decoders in a row run short on what they read in a row
(`RunsShort.bind`): the cut falls into what the first one reads, or the first one reads what it needs
and the cut falls into what is left for the second.

What is cut off is never judged, so no part of a value is refused for its form.
-/

namespace UtxoChain

/-- The error says that the input is too short: a read needs more bytes than remain, or a length is
declared that reaches past them. -/
inductive Error.TellsShort : Error → Prop
  /-- A read needs more bytes than remain. -/
  | notEnoughData {needed remaining : Nat} (h : remaining < needed) :
    TellsShort (.notEnoughData needed remaining)
  /-- A length is declared that is larger than the number of bytes that remain. -/
  | declaredLength {declared remaining : Nat} (h : remaining < declared) :
    TellsShort (.invalidSize (.declaredLength declared remaining))

namespace Decoder

open Stateful

variable {α β : Type}

/-- The decoder fails on every string that lacks some of the last bytes of the given one, and says that
the input is too short. -/
def RunsShort (decoder : Decoder α) (bytes : Bytes) : Prop :=
  ∀ (pos : Nat) (front missing : Bytes), bytes = front ++ missing → missing ≠ [] →
    ∃ fault stop, decoder ⟨pos, front⟩ = .error fault stop ∧ fault.TellsShort

/-- The decoder reads the bytes as the value, wherever they stand. -/
def Reads (decoder : Decoder α) (bytes : Bytes) (value : α) : Prop :=
  ∀ start stop : Cursor, start.Took bytes stop → decoder start = .ok value stop

section

variable {first : Decoder α} {next : α → Decoder β} {one other : Bytes}

/-- A decoder that goes on after another runs short where that one does. -/
theorem RunsShort.bind_left (h : first.RunsShort one) : (first >>= next).RunsShort one := by
  intro pos front missing hBytes hMissing
  obtain ⟨fault, stop, hFails, hShort⟩ := h pos front missing hBytes hMissing
  exact ⟨fault, stop, bind_of_error hFails, hShort⟩

/-- Two decoders in a row run short on two strings in a row, if the first one reads the first string and
the second one runs short on the second. -/
theorem RunsShort.bind {value : α} (h : first.RunsShort one) (hReads : first.Reads one value)
    (hNext : (next value).RunsShort other) : (first >>= next).RunsShort (one ++ other) := by
  intro pos front missing hBytes hMissing
  rcases List.append_eq_append_iff.1 hBytes with ⟨rest, hFront, hOther⟩ | ⟨cut, hOne, hCut⟩
  · -- The first string is there, and the cut falls into the second.
    have hTook : (⟨pos, front⟩ : Cursor).Took one ⟨pos + one.length, rest⟩ := ⟨hFront, rfl⟩
    rw [bind_of_ok (hReads _ _ hTook)]
    exact hNext (pos + one.length) rest missing hOther hMissing
  · by_cases hWhole : cut = []
    · -- The cut falls between the two strings, so nothing of the second is there.
      have hFront : front = one ++ [] := by rw [hOne, hWhole, List.append_nil, List.append_nil]
      have hOther : other = [] ++ missing := by rw [hCut, hWhole, List.nil_append, List.nil_append]
      have hTook : (⟨pos, front⟩ : Cursor).Took one ⟨pos + one.length, []⟩ := ⟨hFront, rfl⟩
      rw [bind_of_ok (hReads _ _ hTook)]
      exact hNext (pos + one.length) [] missing hOther hMissing
    · exact h.bind_left pos front cut hOne hWhole

/-- No part of the empty string is cut off. -/
theorem runsShort_nil (decoder : Decoder α) : decoder.RunsShort [] := by
  intro pos front missing hBytes hMissing
  exact absurd (List.append_eq_nil_iff.1 hBytes.symm).2 hMissing

end

/-! ## Bytes and numbers -/

/-- A read of some bytes runs short on as many bytes. -/
theorem runsShort_bytesOr {fault : Nat → Error} {bytes : Bytes}
    (hFault : ∀ left < bytes.length, (fault left).TellsShort) :
    (bytesOr fault bytes.length).RunsShort bytes := by
  intro pos front missing hBytes hMissing
  have hLength : front.length < bytes.length := by
    have hSum := congrArg List.length hBytes
    have hPos := List.length_pos_iff.2 hMissing
    rw [List.length_append] at hSum
    omega
  refine ⟨fault front.length, ⟨pos, front⟩, ?_, hFault front.length hLength⟩
  rw [bytesOr_eq]
  exact if_neg (Nat.not_le.2 hLength)

/-- A read of some bytes runs short on as many bytes. -/
theorem runsShort_bytes {count : Nat} {value : Bytes} (hLength : value.length = count) :
    (bytes count).RunsShort value := by
  subst hLength
  exact runsShort_bytesOr fun left hLess => .notEnoughData hLess

/-- A number of some bytes runs short on its digits. -/
theorem runsShort_natBE (width n : Nat) : (natBE width).RunsShort (Bytes.ofNatBE width n) :=
  (runsShort_bytes (Bytes.length_ofNatBE width n)).bind_left

/-- A byte runs short on itself. -/
theorem runsShort_byte (value : UInt8) : byte.RunsShort [value] :=
  (runsShort_bytes rfl).bind_left.bind_left

/-- A word of 32 bits runs short on its four bytes. -/
theorem runsShort_word32 (value : UInt32) : word32.RunsShort (Bytes.ofNatBE 4 value.toNat) :=
  (runsShort_natBE 4 value.toNat).bind_left

/-- A word of 64 bits runs short on its eight bytes. -/
theorem runsShort_word64 (value : UInt64) : word64.RunsShort (Bytes.ofNatBE 8 value.toNat) :=
  (runsShort_natBE 8 value.toNat).bind_left

/-- A string of fixed width runs short on its bytes. -/
theorem runsShort_fixed {width : Nat} (value : FixedBytes width) :
    (fixed width).RunsShort value.toBytes :=
  (runsShort_bytes value.length_toBytes).bind_left

/-- A byte is read as itself. -/
theorem reads_byte (value : UInt8) : byte.Reads [value] value :=
  fun _ _ hTook => byte_ok_iff.2 hTook

/-- Four bytes are read as the word of 32 bits that they write. -/
theorem reads_word32 (value : UInt32) : word32.Reads (Bytes.ofNatBE 4 value.toNat) value :=
  fun _ _ hTook => word32_ok_iff.2 hTook

/-- Eight bytes are read as the word of 64 bits that they write. -/
theorem reads_word64 (value : UInt64) : word64.Reads (Bytes.ofNatBE 8 value.toNat) value :=
  fun _ _ hTook => word64_ok_iff.2 hTook

/-- Bytes of a fixed width are read as the string of them. -/
theorem reads_fixed {width : Nat} (value : FixedBytes width) :
    (fixed width).Reads value.toBytes value :=
  fun _ _ hTook => fixed_ok_iff.2 hTook

/-! ## Counts and what they count -/

/-- After a marker, a number runs short on its digits: it is judged only once all are there. -/
theorem runsShort_decodeAfter (marker : UInt8) (width least n : Nat) :
    (VarInt.decodeAfter marker width least).RunsShort (Bytes.ofNatBE width n) :=
  (runsShort_natBE width n).bind_left

/-- A variable-length integer runs short on its shortest form. -/
theorem runsShort_varInt (value : UInt64) : VarInt.decoder.RunsShort (VarInt.encode value) := by
  unfold VarInt.encode VarInt.decoder
  dsimp only
  -- One case for each form: its marker is read, and then its digits run short.
  split_ifs with hByte hTwo hFour
  · exact (runsShort_byte _).bind_left
  · apply (runsShort_byte 0xfd).bind (reads_byte 0xfd)
    rw [if_neg (by decide), if_pos rfl]
    exact runsShort_decodeAfter _ _ _ _
  · apply (runsShort_byte 0xfe).bind (reads_byte 0xfe)
    rw [if_neg (by decide), if_neg (by decide), if_pos rfl]
    exact runsShort_decodeAfter _ _ _ _
  · apply (runsShort_byte 0xff).bind (reads_byte 0xff)
    rw [if_neg (by decide), if_neg (by decide), if_neg (by decide)]
    exact runsShort_decodeAfter _ _ _ _

/-- A count runs short on its shortest form. -/
theorem runsShort_count (n : Nat) : count.RunsShort (VarInt.encode (UInt64.ofNat n)) :=
  (runsShort_varInt (UInt64.ofNat n)).bind_left

/-- The shortest form of a count that fits a word is read as the count. -/
theorem reads_count {n : Nat} (h : n < 2 ^ 64) : count.Reads (VarInt.encode (UInt64.ofNat n)) n :=
  fun _ _ hTook => count_ok_iff.2 ⟨h, hTook⟩

/-- A byte string runs short on its length and its bytes. -/
theorem runsShort_countedBytes {bytes : Bytes} (hLength : bytes.length < 2 ^ 64) :
    countedBytes.RunsShort (Bytes.counted bytes) := by
  apply (runsShort_count bytes.length).bind (reads_count hLength)
  exact runsShort_bytesOr fun left hLess => .declaredLength hLess

section Items

variable {decoder : Decoder α} {encode : α → Bytes} {valid : α → Prop}

/-- A decoder that inverts an encoder reads what it writes. -/
theorem Inverts.reads (h : Inverts decoder encode valid) {value : α} (hValid : valid value) :
    decoder.Reads (encode value) value :=
  fun _ _ hTook => (h _ _ _).2 ⟨hValid, hTook⟩

/-- Several values run short on their bytes in a row, if each does on its own. -/
theorem runsShort_replicate (h : Inverts decoder encode valid) {items : List α}
    (hValid : ∀ item ∈ items, valid item) (hItems : ∀ item ∈ items, decoder.RunsShort (encode item)) :
    (replicate decoder items.length).RunsShort (items.flatMap encode) := by
  induction items with
  | nil => exact runsShort_nil _
  | cons item items ih =>
    rw [List.forall_mem_cons] at hValid hItems
    rw [List.flatMap_cons, List.length_cons]
    apply hItems.1.bind (h.reads hValid.1)
    exact (ih hValid.2 hItems.2).bind_left

/-- A list runs short on its length and its items, if each item does on its own bytes. -/
theorem runsShort_counted (h : Inverts decoder encode valid) {items : List α}
    (hLength : items.length < 2 ^ 64) (hValid : ∀ item ∈ items, valid item)
    (hItems : ∀ item, valid item → decoder.RunsShort (encode item)) :
    (counted decoder).RunsShort (Bytes.countedList encode items) := by
  apply (runsShort_count items.length).bind (reads_count hLength)
  exact runsShort_replicate h hValid fun item hMem => hItems item (hValid item hMem)

/-- The length and the items of a list are read as the list. -/
theorem reads_counted (h : Inverts decoder encode valid) {items : List α}
    (hLength : items.length < 2 ^ 64) (hValid : ∀ item ∈ items, valid item) :
    (counted decoder).Reads (Bytes.countedList encode items) items :=
  fun _ _ hTook => (counted_ok_iff h).2 ⟨⟨hLength, hValid⟩, hTook⟩

end Items

/-! ## Whole strings -/

section Whole

variable {decoder : Decoder α} {encode : α → Bytes} {valid : α → Prop}

/-- A part of a string on which a decoder runs short is no value, and the error says that it is too
short. -/
theorem RunsShort.decodeAll_take {bytes : Bytes} (h : decoder.RunsShort bytes) {count : Nat}
    (hCount : count < bytes.length) :
    ∃ fault, decodeAll decoder (bytes.take count) = .error fault ∧ fault.TellsShort := by
  have hMissing : bytes.drop count ≠ [] := by
    rw [Ne, List.drop_eq_nil_iff]
    exact Nat.not_le.2 hCount
  have hSplit : bytes = bytes.take count ++ bytes.drop count := (List.take_append_drop _ _).symm
  -- The end of the input is not asked for, since the value before it is not read.
  have hWhole : (do let value ← decoder; finish; return value : Decoder α).RunsShort bytes :=
    h.bind_left
  obtain ⟨fault, stop, hFails, hShort⟩ := hWhole 0 (bytes.take count) _ hSplit hMissing
  refine ⟨fault, ?_, hShort⟩
  unfold decodeAll runAt
  dsimp only
  rw [EStateM.run, Cursor.ofBytes, hFails]

/-- The bytes of a valid value in front of others are no value, and the error tells how many others
there are. -/
theorem Inverts.decodeAll_append (h : Inverts decoder encode valid) {value : α}
    (hValid : valid value) {rest : Bytes} (hRest : rest ≠ []) :
    decodeAll decoder (encode value ++ rest) = .error (.tooMuchData rest.length) := by
  have hReads : decoder (.ofBytes (encode value ++ rest)) = .ok value ⟨_, rest⟩ :=
    h.decoder_append hValid 0 rest
  obtain ⟨byte, others, rfl⟩ := List.exists_cons_of_ne_nil hRest
  unfold decodeAll runAt
  dsimp only
  rw [EStateM.run, bind_of_ok hReads]
  unfold finish
  rfl

end Whole

end Decoder

end UtxoChain
