import UtxoChain.Proofs.Wire.Reading

/-!
# Variable-length integers and what they count

A variable-length integer is read from its shortest form and from no other. On it rest the byte
strings and the lists that stand after their lengths; such a length is a number of 64 bits.
-/

namespace UtxoChain

namespace VarInt

open Decoder Stateful

/-- Above the plain bytes there are three markers, and the widest is left when the others are not. -/
theorem eq_widest_of_ne {first : UInt8} (hByte : ¬ first < 0xfd) (hTwo : first ≠ 0xfd)
    (hFour : first ≠ 0xfe) : first = 0xff := by
  have hMax := first.toNat_lt
  have hLeast : 0xfd ≤ first.toNat := Nat.le_of_not_lt hByte
  have hNotTwo : first.toNat ≠ 0xfd := fun h => hTwo (UInt8.toNat_inj.1 h)
  have hNotFour : first.toNat ≠ 0xfe := fun h => hFour (UInt8.toNat_inj.1 h)
  have hLast : first.toNat = 0xff := by omega
  exact UInt8.toNat_inj.1 hLast

/-- After a marker stands a number that is wide enough for the marker and fits the width. -/
theorem decodeAfter_ok_iff {marker : UInt8} {width least : Nat} (hWidth : width ≤ 8)
    {start stop : Cursor} {value : UInt64} :
    decodeAfter marker width least start = .ok value stop ↔
      least ≤ value.toNat ∧ value.toNat < 256 ^ width ∧
        start.Took (Bytes.ofNatBE width value.toNat) stop := by
  have hPower : 256 ^ width ≤ 2 ^ 64 := Nat.pow_le_pow_right (n := 256) (by decide) hWidth
  unfold decodeAfter
  rw [bind_ok_iff]
  simp only [natBE_ok_iff]
  constructor
  · rintro ⟨n, middle, ⟨hLess, hTook⟩, h⟩
    split_ifs at h with hLeast
    · exact (throw_ok_iff.1 h).elim
    · obtain ⟨rfl, rfl⟩ := pure_ok_iff.1 h
      rw [UInt64.toNat_ofNat_of_lt' (Nat.lt_of_lt_of_le hLess hPower)]
      exact ⟨Nat.le_of_not_lt hLeast, hLess, hTook⟩
  · rintro ⟨hLeast, hLess, hTook⟩
    refine ⟨value.toNat, stop, ⟨hLess, hTook⟩, ?_⟩
    rw [if_neg (Nat.not_lt.2 hLeast)]
    exact pure_ok_iff.2 ⟨UInt64.ofNat_toNat, rfl⟩

/-- A number is read from its shortest form. -/
theorem decoder_ok_iff {start stop : Cursor} {value : UInt64} :
    decoder start = .ok value stop ↔ start.Took (encode value) stop := by
  have hValue := value.toNat_lt
  have hWord16 : UInt16.size = 0x10000 := rfl
  have hWord32 : UInt32.size = 0x100000000 := rfl
  unfold decoder
  simp only [bind_ok_iff, byte_ok_iff]
  -- One case for each marker, in the order in which encoding and decoding try them.
  constructor
  · rintro ⟨first, middle, hFirst, h⟩
    have hForm : ∀ form, middle.Took form stop → start.Took (first :: form) stop :=
      fun form hTook => (Cursor.took_append_iff start [first] form stop).2 ⟨middle, hFirst, hTook⟩
    unfold encode
    split_ifs at h with hByte hTwo hFour
    · obtain ⟨rfl, rfl⟩ := pure_ok_iff.1 h
      have hLess : first.toNat < 0xfd := hByte
      simpa [hLess] using hFirst
    · obtain ⟨hLeast, hLess, hTook⟩ := (decodeAfter_ok_iff (by decide)).1 h
      rw [if_neg (by omega), if_pos (by omega), ← hTwo]
      exact hForm _ hTook
    · obtain ⟨hLeast, hLess, hTook⟩ := (decodeAfter_ok_iff (by decide)).1 h
      rw [if_neg (by omega), if_neg (by omega), if_pos (by omega), ← hFour]
      exact hForm _ hTook
    · obtain ⟨hLeast, hLess, hTook⟩ := (decodeAfter_ok_iff (by decide)).1 h
      have hLast := eq_widest_of_ne hByte hTwo hFour
      rw [if_neg (by omega), if_neg (by omega), if_neg (by omega), ← hLast]
      exact hForm _ hTook
  · intro hTook
    dsimp only [encode] at hTook
    split_ifs at hTook with hByte hTwo hFour
    · have hFirst : UInt8.ofNat value.toNat < 0xfd := by
        rw [UInt8.lt_iff_toNat_lt, UInt8.toNat_ofNat']
        exact Nat.lt_of_le_of_lt (Nat.mod_le _ _) hByte
      refine ⟨UInt8.ofNat value.toNat, stop, hTook, ?_⟩
      rw [if_pos hFirst, pure_ok_iff, ← UInt64.toNat_inj, UInt8.toNat_toUInt64,
        UInt8.toNat_ofNat_of_lt' (Nat.lt_trans hByte (by decide))]
      exact ⟨rfl, rfl⟩
    · obtain ⟨middle, hFirst, hForm⟩ := (Cursor.took_append_iff start [0xfd] _ stop).1 hTook
      refine ⟨0xfd, middle, hFirst, ?_⟩
      rw [if_neg (by decide), if_pos rfl, decodeAfter_ok_iff (by decide)]
      exact ⟨by omega, hTwo, hForm⟩
    · obtain ⟨middle, hFirst, hForm⟩ := (Cursor.took_append_iff start [0xfe] _ stop).1 hTook
      refine ⟨0xfe, middle, hFirst, ?_⟩
      rw [if_neg (by decide), if_neg (by decide), if_pos rfl, decodeAfter_ok_iff (by decide)]
      exact ⟨by omega, hFour, hForm⟩
    · obtain ⟨middle, hFirst, hForm⟩ := (Cursor.took_append_iff start [0xff] _ stop).1 hTook
      refine ⟨0xff, middle, hFirst, ?_⟩
      rw [if_neg (by decide), if_neg (by decide), if_neg (by decide),
        decodeAfter_ok_iff (by decide)]
      exact ⟨by omega, hValue, hForm⟩

end VarInt

namespace Decoder

open Stateful

variable {α : Type} {start stop : Cursor}

/-- A count is a number of 64 bits and is read from its shortest form. -/
theorem count_ok_iff {n : Nat} :
    count start = .ok n stop ↔
      n < 2 ^ 64 ∧ start.Took (VarInt.encode (UInt64.ofNat n)) stop := by
  unfold count
  simp only [bind_ok_iff, VarInt.decoder_ok_iff, pure_ok_iff]
  constructor
  · rintro ⟨value, _, hTook, rfl, rfl⟩
    rw [UInt64.ofNat_toNat]
    exact ⟨value.toNat_lt, hTook⟩
  · rintro ⟨hLess, hTook⟩
    exact ⟨_, stop, hTook, UInt64.toNat_ofNat_of_lt' hLess, rfl⟩

/-- A byte string is read from its length and its bytes. -/
theorem countedBytes_ok_iff {bytes : Bytes} :
    countedBytes start = .ok bytes stop ↔
      bytes.length < 2 ^ 64 ∧ start.Took (Bytes.counted bytes) stop := by
  unfold countedBytes Bytes.counted
  simp only [bind_ok_iff, count_ok_iff, bytesOr_ok_iff, Cursor.took_append_iff]
  constructor
  · rintro ⟨_, middle, ⟨hLess, hLength⟩, rfl, hBytes⟩
    exact ⟨hLess, middle, hLength, hBytes⟩
  · rintro ⟨hLess, middle, hLength, hBytes⟩
    exact ⟨bytes.length, middle, ⟨hLess, hLength⟩, rfl, hBytes⟩

/-- A byte string is read from its length and its bytes, if the length is a number of 64 bits. -/
theorem inverts_countedBytes :
    Inverts countedBytes Bytes.counted fun bytes => bytes.length < 2 ^ 64 :=
  fun _ _ _ => countedBytes_ok_iff

variable {decoder : Decoder α} {encode : α → Bytes} {valid : α → Prop}

/-- Several values are read from their bytes, one after the other. -/
theorem replicate_ok_iff (h : Inverts decoder encode valid) {count : Nat} {items : List α} :
    replicate decoder count start = .ok items stop ↔
      items.length = count ∧ (∀ item ∈ items, valid item) ∧
        start.Took (items.flatMap encode) stop := by
  induction count generalizing start stop items with
  | zero =>
    unfold replicate
    rw [pure_ok_iff, List.length_eq_zero_iff]
    constructor
    · rintro ⟨rfl, rfl⟩
      simp
    · rintro ⟨rfl, -, hTook⟩
      simpa using hTook
  | succ count ih =>
    unfold replicate
    simp only [bind_ok_iff, pure_ok_iff, ih, h _ _ _]
    constructor
    · rintro ⟨item, middle, ⟨hItem, hFirst⟩, items, _, ⟨rfl, hItems, hOthers⟩, rfl, rfl⟩
      refine ⟨rfl, List.forall_mem_cons.2 ⟨hItem, hItems⟩, ?_⟩
      rw [List.flatMap_cons, Cursor.took_append_iff]
      exact ⟨middle, hFirst, hOthers⟩
    · rintro ⟨hLength, hItems, hTook⟩
      obtain ⟨item, items, rfl⟩ := List.exists_cons_of_length_eq_add_one hLength
      rw [List.flatMap_cons, Cursor.took_append_iff] at hTook
      obtain ⟨middle, hFirst, hOthers⟩ := hTook
      obtain ⟨hItem, hItems⟩ := List.forall_mem_cons.1 hItems
      exact ⟨item, middle, ⟨hItem, hFirst⟩, items, stop,
        ⟨Nat.succ.inj hLength, hItems, hOthers⟩, rfl, rfl⟩

/-- A list is read from its length and its items. -/
theorem counted_ok_iff (h : Inverts decoder encode valid) {items : List α} :
    counted decoder start = .ok items stop ↔
      (items.length < 2 ^ 64 ∧ ∀ item ∈ items, valid item) ∧
        start.Took (Bytes.countedList encode items) stop := by
  unfold counted Bytes.countedList
  simp only [bind_ok_iff, count_ok_iff, replicate_ok_iff h, Cursor.took_append_iff]
  constructor
  · rintro ⟨_, middle, ⟨hLess, hLength⟩, rfl, hItems, hTook⟩
    exact ⟨⟨hLess, hItems⟩, middle, hLength, hTook⟩
  · rintro ⟨⟨hLess, hItems⟩, middle, hLength, hTook⟩
    exact ⟨items.length, middle, ⟨hLess, hLength⟩, rfl, hItems, hTook⟩

end Decoder

end UtxoChain
