import UtxoChain.Proofs.Bytes.Positional
import UtxoChain.Proofs.Verdict
import UtxoChain.Wire.Format

/-!
# What decoders take

For each decoder, the values that it gives and the bytes that it takes for them. A decoder that
inverts an encoder gives a value exactly where the bytes of the value stand, and takes those bytes and
no others: so decoding undoes encoding in front of any further bytes, and a value is read from one
byte string only.
-/

namespace UtxoChain

/-- Reading went on from one cursor to another over some bytes. -/
structure Cursor.Took (start : Cursor) (bytes : Bytes) (stop : Cursor) : Prop where
  /-- The bytes stood in front of those that are left. -/
  rest_eq : start.rest = bytes ++ stop.rest
  /-- The position has moved past the bytes. -/
  pos_eq : stop.pos = start.pos + bytes.length

namespace Cursor

/-- Nothing is taken where the cursor stays. -/
@[simp]
theorem took_nil_iff (start stop : Cursor) : start.Took [] stop ↔ start = stop := by
  constructor
  · rintro ⟨hRest, hPos⟩
    cases start
    cases stop
    simp_all
  · rintro rfl
    exact ⟨rfl, rfl⟩

/-- Two strings in a row are taken one after the other. -/
theorem took_append_iff (start : Cursor) (one other : Bytes) (stop : Cursor) :
    start.Took (one ++ other) stop ↔ ∃ middle, start.Took one middle ∧ middle.Took other stop := by
  constructor
  · rintro ⟨hRest, hPos⟩
    refine ⟨⟨start.pos + one.length, other ++ stop.rest⟩, ⟨?_, rfl⟩, ⟨rfl, ?_⟩⟩
    · rw [hRest, List.append_assoc]
    · rw [hPos, List.length_append, Nat.add_assoc]
  · rintro ⟨middle, ⟨hRest, hPos⟩, ⟨hRest', hPos'⟩⟩
    refine ⟨?_, ?_⟩
    · rw [hRest, hRest', List.append_assoc]
    · rw [hPos', hPos, List.length_append, Nat.add_assoc]

/-- Where nothing is left, all the bytes were taken. -/
theorem Took.eq_of_rest_eq_nil {start stop : Cursor} {bytes : Bytes} (h : start.Took bytes stop)
    (hEnd : stop.rest = []) : start.rest = bytes := by
  rw [h.rest_eq, hEnd, List.append_nil]

end Cursor

namespace Decoder

open Stateful

variable {α : Type}

/-- The decoder gives a value exactly where the value is valid and its bytes stand, and takes those
bytes. -/
def Inverts (decoder : Decoder α) (encode : α → Bytes) (valid : α → Prop) : Prop :=
  ∀ start value stop,
    decoder start = .ok value stop ↔ valid value ∧ start.Took (encode value) stop

/-! ## Bytes and numbers -/

/-- A computed value is given where the cursor stays. -/
theorem ofExcept_ok_iff {result : Except Error α} {b : α} {start stop : Cursor} :
    ofExcept result start = .ok b stop ↔ result = .ok b ∧ start = stop := by
  cases result with
  | ok a => simp [ofExcept, pure_ok_iff]
  | error fault => simp [ofExcept, throw_ok_iff]

/-- A read of some bytes takes all of them, or none where they are not there. -/
theorem bytesOr_eq (fault : Nat → Error) (count : Nat) (start : Cursor) :
    bytesOr fault count start =
      if count ≤ start.remaining then
        .ok (start.rest.take count) ⟨start.pos + count, start.rest.drop count⟩
      else .error (fault start.remaining) start := by
  unfold bytesOr
  rw [Bytes.split?_eq]
  by_cases hEnough : count ≤ start.rest.length
  · rw [if_pos hEnough]
    exact (if_pos hEnough).symm
  · rw [if_neg hEnough]
    exact (if_neg hEnough).symm

/-- A read of some bytes gives and takes as many bytes. -/
theorem bytesOr_ok_iff {fault : Nat → Error} {count : Nat} {start stop : Cursor} {bytes : Bytes} :
    bytesOr fault count start = .ok bytes stop ↔
      bytes.length = count ∧ start.Took bytes stop := by
  rw [bytesOr_eq, Cursor.remaining]
  constructor
  · intro h
    split_ifs at h with hCount
    obtain ⟨rfl, rfl⟩ := EStateM.Result.ok.inj h
    have hLength : (start.rest.take count).length = count := List.length_take_of_le hCount
    refine ⟨hLength, ⟨(List.take_append_drop _ _).symm, ?_⟩⟩
    rw [hLength]
  · rintro ⟨rfl, ⟨hRest, hPos⟩⟩
    cases start
    cases stop
    simp_all

/-- A read of some bytes gives and takes as many bytes. -/
theorem bytes_ok_iff {count : Nat} {start stop : Cursor} {value : Bytes} :
    bytes count start = .ok value stop ↔ value.length = count ∧ start.Took value stop :=
  bytesOr_ok_iff

/-- A number of some bytes is read from its digits. -/
theorem natBE_ok_iff {width : Nat} {start stop : Cursor} {n : Nat} :
    natBE width start = .ok n stop ↔
      n < 256 ^ width ∧ start.Took (Bytes.ofNatBE width n) stop := by
  unfold natBE
  simp only [bind_ok_iff, bytes_ok_iff, pure_ok_iff]
  constructor
  · rintro ⟨value, _, ⟨rfl, hTook⟩, rfl, rfl⟩
    refine ⟨Bytes.toNatBE_lt value, ?_⟩
    rw [Bytes.ofNatBE_toNatBE]
    exact hTook
  · rintro ⟨hLess, hTook⟩
    exact ⟨_, stop, ⟨Bytes.length_ofNatBE width n, hTook⟩, Bytes.toNatBE_ofNatBE_of_lt hLess, rfl⟩

/-- A byte is read from itself. -/
theorem byte_ok_iff {start stop : Cursor} {value : UInt8} :
    byte start = .ok value stop ↔ start.Took [value] stop := by
  unfold byte
  simp only [bind_ok_iff, natBE_ok_iff, pure_ok_iff]
  constructor
  · rintro ⟨n, _, ⟨-, hTook⟩, rfl, rfl⟩
    exact hTook
  · intro hTook
    refine ⟨value.toNat, stop, ⟨value.toNat_lt, ?_⟩, UInt8.ofNat_toNat, rfl⟩
    simpa [Bytes.ofNatBE, Bytes.prependNat] using hTook

/-- A word of 32 bits is read from its four bytes. -/
theorem word32_ok_iff {start stop : Cursor} {value : UInt32} :
    word32 start = .ok value stop ↔ start.Took (Bytes.ofNatBE 4 value.toNat) stop := by
  unfold word32
  simp only [bind_ok_iff, natBE_ok_iff, pure_ok_iff]
  constructor
  · rintro ⟨n, _, ⟨hLess, hTook⟩, rfl, rfl⟩
    rwa [UInt32.toNat_ofNat_of_lt' hLess]
  · intro hTook
    exact ⟨value.toNat, stop, ⟨value.toNat_lt, hTook⟩, UInt32.ofNat_toNat, rfl⟩

/-- Every word of 32 bits is read from its four bytes. -/
theorem inverts_word32 : Inverts word32 (fun value => Bytes.ofNatBE 4 value.toNat) fun _ => True := by
  intro start value stop
  rw [true_and]
  exact word32_ok_iff

/-- A word of 64 bits is read from its eight bytes. -/
theorem word64_ok_iff {start stop : Cursor} {value : UInt64} :
    word64 start = .ok value stop ↔ start.Took (Bytes.ofNatBE 8 value.toNat) stop := by
  unfold word64
  simp only [bind_ok_iff, natBE_ok_iff, pure_ok_iff]
  constructor
  · rintro ⟨n, _, ⟨hLess, hTook⟩, rfl, rfl⟩
    rwa [UInt64.toNat_ofNat_of_lt' hLess]
  · intro hTook
    exact ⟨value.toNat, stop, ⟨value.toNat_lt, hTook⟩, UInt64.ofNat_toNat, rfl⟩

/-- A string of fixed width is read from its bytes. -/
theorem fixed_ok_iff {width : Nat} {start stop : Cursor} {value : FixedBytes width} :
    fixed width start = .ok value stop ↔ start.Took value.toBytes stop := by
  unfold fixed
  simp only [bind_ok_iff, bytes_ok_iff, ofExcept_ok_iff]
  constructor
  · rintro ⟨bytes, _, ⟨hLength, hTook⟩, hValue, rfl⟩
    obtain rfl : ⟨bytes, hLength⟩ = value := by
      simpa [FixedBytes.ofBytes, FixedBytes.ofBytes?, hLength] using hValue
    exact hTook
  · intro hTook
    refine ⟨value.toBytes, stop, ⟨value.length_toBytes, hTook⟩, ?_, rfl⟩
    simp [FixedBytes.ofBytes, FixedBytes.ofBytes?, value.length_toBytes]

/-! ## Whole strings -/

section Whole

variable {start stop : Cursor} {decoder : Decoder α} {encode : α → Bytes} {valid : α → Prop}

/-- The end of the input is where no bytes are left. -/
theorem finish_ok_iff {done : Unit} :
    finish start = .ok done stop ↔ start.rest = [] ∧ start = stop := by
  have hRemaining : remaining start = .ok start.rest.length start := rfl
  unfold finish
  simp only [bind_ok_iff, hRemaining, EStateM.Result.ok.injEq]
  cases hRest : start.rest with
  | nil => simp [pure_ok_iff]
  | cons byte rest => simp [throw_ok_iff]

/-- The result of a decoder is the value that it gives. -/
theorem runAt_fst_eq_ok_iff {value : α} :
    (decoder.runAt start).1 = .ok value ↔ ∃ stop, decoder start = .ok value stop := by
  unfold runAt EStateM.run
  cases decoder start with
  | ok found stop => simp
  | error fault stop => simp

/-- A whole byte string is a value exactly where the decoder gives the value and leaves nothing. -/
theorem decodeAll_eq_ok_iff_exists {bytes : Bytes} {value : α} :
    decodeAll decoder bytes = .ok value ↔
      ∃ stop, decoder (.ofBytes bytes) = .ok value stop ∧ stop.rest = [] := by
  unfold decodeAll
  rw [runAt_fst_eq_ok_iff]
  simp only [bind_ok_iff, finish_ok_iff, pure_ok_iff]
  constructor
  · rintro ⟨_, _, stop, hValue, -, _, ⟨hEnd, -⟩, rfl, -⟩
    exact ⟨stop, hValue, hEnd⟩
  · rintro ⟨stop, hValue, hEnd⟩
    exact ⟨stop, value, stop, hValue, (), stop, ⟨hEnd, rfl⟩, rfl, rfl⟩

/-- A whole byte string is a value exactly where it is what the encoder writes for it. -/
theorem decodeAll_eq_ok_iff (h : Inverts decoder encode valid) {bytes : Bytes} {value : α} :
    decodeAll decoder bytes = .ok value ↔ valid value ∧ bytes = encode value := by
  rw [decodeAll_eq_ok_iff_exists]
  simp only [h _ _ _]
  constructor
  · rintro ⟨stop, ⟨hValid, hTook⟩, hEnd⟩
    exact ⟨hValid, hTook.eq_of_rest_eq_nil hEnd⟩
  · rintro ⟨hValid, rfl⟩
    refine ⟨⟨(encode value).length, []⟩, ⟨hValid, ?_⟩, rfl⟩
    exact ⟨(List.append_nil _).symm, (Nat.zero_add _).symm⟩

/-- A valid value is read from its bytes wherever they stand, and what follows them is left. -/
theorem Inverts.decoder_append (h : Inverts decoder encode valid) {value : α}
    (hValid : valid value) (pos : Nat) (rest : Bytes) :
    decoder ⟨pos, encode value ++ rest⟩ = .ok value ⟨pos + (encode value).length, rest⟩ := by
  rw [h]
  exact ⟨hValid, rfl, rfl⟩

/-- The bytes of valid values differ, also in front of further bytes. -/
theorem Inverts.eq_of_append_eq (h : Inverts decoder encode valid) {one other : α}
    (hOne : valid one) (hOther : valid other) {left right : Bytes}
    (hBytes : encode one ++ left = encode other ++ right) : one = other ∧ left = right := by
  -- One string is read in two ways, and a decoder gives one result only.
  have hReadOne := h.decoder_append hOne 0 left
  have hReadOther := h.decoder_append hOther 0 right
  rw [← hBytes, hReadOne] at hReadOther
  obtain ⟨hSame, hStop⟩ := EStateM.Result.ok.inj hReadOther
  exact ⟨hSame, (Cursor.mk.inj hStop).2⟩

/-- Valid values with the same bytes are the same. -/
theorem Inverts.eq_of_encode_eq (h : Inverts decoder encode valid) {one other : α}
    (hOne : valid one) (hOther : valid other) (hBytes : encode one = encode other) :
    one = other := by
  have hAppend : encode one ++ [] = encode other ++ [] := by rw [hBytes]
  exact (h.eq_of_append_eq hOne hOther hAppend).1

/-- Lists of valid values with the same bytes in a row are the same, if no value has no bytes. -/
theorem Inverts.eq_of_flatMap_eq (h : Inverts decoder encode valid)
    (hNonempty : ∀ value, encode value ≠ []) {one other : List α} (hOne : ∀ value ∈ one, valid value)
    (hOther : ∀ value ∈ other, valid value) (hBytes : one.flatMap encode = other.flatMap encode) :
    one = other := by
  induction one generalizing other with
  | nil =>
    cases other with
    | nil => rfl
    | cons value rest =>
      rw [List.flatMap_nil, List.flatMap_cons, eq_comm, List.append_eq_nil_iff] at hBytes
      exact absurd hBytes.1 (hNonempty value)
  | cons value rest ih =>
    cases other with
    | nil =>
      rw [List.flatMap_nil, List.flatMap_cons, List.append_eq_nil_iff] at hBytes
      exact absurd hBytes.1 (hNonempty value)
    | cons value' rest' =>
      rw [List.forall_mem_cons] at hOne hOther
      rw [List.flatMap_cons, List.flatMap_cons] at hBytes
      obtain ⟨hValue, hRest⟩ := h.eq_of_append_eq hOne.1 hOther.1 hBytes
      rw [hValue, ih hOne.2 hOther.2 hRest]

end Whole

end Decoder

end UtxoChain
