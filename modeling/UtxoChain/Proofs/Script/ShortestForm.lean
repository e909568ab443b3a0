import UtxoChain.Proofs.Script.Number

/-!
# The shortest form of a number

A byte string stands for the number that its bits write in two's complement
(`ScriptNumber.value_eq_signed`). Of the strings that stand for one number, exactly one is read as it:
the one whose first nine bits are not all the same, so that no leading byte can be spared, or that has a
single byte (`ScriptNumber.decode_iff_isShortest`).

Turning over every bit leads from a number to its distance to `-1`, and back. So what holds of the
strings whose highest bit is clear holds of the others (`encode_not`, `value_complement`).
-/

namespace UtxoChain

namespace Bytes

/-! ## Bits -/

/-- The bits of a byte, the highest first. -/
def bitsOf (byte : UInt8) : List Bool :=
  (List.range 8).map byte.toBitVec.getMsbD

/-- The bits of a byte string, first byte first. -/
def bits (bytes : Bytes) : List Bool :=
  bytes.flatMap bitsOf

/-- A byte string with every bit turned over. -/
def complement (bytes : Bytes) : Bytes :=
  bytes.map (~~~ ·)

/-- Turning every bit over twice changes nothing. -/
@[simp]
theorem complement_complement (bytes : Bytes) : complement (complement bytes) = bytes := by
  simp [complement, Function.comp_def]

/-- Strings are told by their bits turned over. -/
theorem complement_injective : Function.Injective complement :=
  Function.LeftInverse.injective complement_complement

/-- Turning bits over keeps the length. -/
@[simp]
theorem length_complement (bytes : Bytes) : (complement bytes).length = bytes.length :=
  List.length_map _

/-- The bits of a string that is turned over are the other ones. -/
theorem bits_complement (bytes : Bytes) : bits (complement bytes) = (bits bytes).map (! ·) := by
  have hByte : ∀ byte : UInt8, bitsOf (~~~ byte) = (bitsOf byte).map (! ·) := by
    intro byte
    simp [bitsOf, List.range, List.range.loop]
  unfold bits complement
  rw [List.flatMap_map, List.map_flatMap]
  simp only [hByte]

/-- A string and the one that is turned over add up to all ones. -/
theorem toNatBE_complement (bytes : Bytes) :
    toNatBE (complement bytes) + toNatBE bytes + 1 = 256 ^ bytes.length := by
  induction bytes with
  | nil => rfl
  | cons byte bytes ih =>
    have hByte : (~~~ byte).toNat + byte.toNat = 255 := by
      have hLess := byte.toNat_lt
      have hSize : UInt8.size = 256 := rfl
      rw [UInt8.toNat_not]
      omega
    have hTail : complement (byte :: bytes) = ~~~ byte :: complement bytes := rfl
    rw [hTail, toNatBE_cons, toNatBE_cons, length_complement, List.length_cons, Nat.pow_succ]
    calc (~~~ byte).toNat * 256 ^ bytes.length + toNatBE (complement bytes) +
          (byte.toNat * 256 ^ bytes.length + toNatBE bytes) + 1
        = ((~~~ byte).toNat + byte.toNat) * 256 ^ bytes.length +
          (toNatBE (complement bytes) + toNatBE bytes + 1) := by ring
      _ = 256 ^ bytes.length * 256 := by
        rw [hByte, ih]
        ring

/-- What holds of the strings that begin with a clear bit, and of a string that is turned over if it
holds of the string, holds of all strings. -/
theorem complement_induction {motive : Bytes → Prop} (empty : motive [])
    (clear : ∀ first rest, ¬ 0x80 ≤ first → motive (first :: rest))
    (flipped : ∀ bytes, bytes ≠ [] → motive bytes → motive (complement bytes)) (bytes : Bytes) :
    motive bytes := by
  cases bytes with
  | nil => exact empty
  | cons first rest =>
    by_cases hSet : 0x80 ≤ first
    · have hClear : ¬ 0x80 ≤ ~~~ first := by
        have hFirst : 128 ≤ first.toNat := hSet
        have hSize : UInt8.size = 256 := rfl
        rw [UInt8.le_iff_toNat_le, UInt8.toNat_not]
        change ¬ 128 ≤ _
        omega
      have hFlipped := flipped (~~~ first :: complement rest) (List.cons_ne_nil _ _) (clear _ _ hClear)
      rwa [show ~~~ first :: complement rest = complement (first :: rest) from rfl,
        complement_complement] at hFlipped
    · exact clear first rest hSet

/-- No byte can be spared at the front of a string in two's complement: it is the only one, or the
first nine bits are not all the same. -/
structure IsShortest (bytes : Bytes) : Prop where
  /-- There is a byte. -/
  ne_nil : bytes ≠ []
  /-- The second byte does not begin with the bit that the first one repeats. -/
  mixed : bytes.length = 1 ∨ ∀ bit, (bits bytes).take 9 ≠ List.replicate 9 bit

instance : DecidablePred IsShortest := fun bytes =>
  decidable_of_iff (bytes ≠ [] ∧ (bytes.length = 1 ∨ ∀ bit, (bits bytes).take 9 ≠
    List.replicate 9 bit)) ⟨fun h => ⟨h.1, h.2⟩, fun h => ⟨h.ne_nil, h.mixed⟩⟩

/-- Turning every bit over keeps a string as short as it is. -/
theorem isShortest_complement {bytes : Bytes} : IsShortest (complement bytes) ↔ IsShortest bytes := by
  have hOne : ∀ bytes : Bytes, IsShortest bytes → IsShortest (complement bytes) := by
    intro bytes h
    refine ⟨fun hNil => h.ne_nil (List.map_eq_nil_iff.1 hNil), ?_⟩
    rw [length_complement]
    refine h.mixed.imp_right fun hMixed bit hSame => hMixed (!bit) ?_
    rw [bits_complement, ← List.map_take] at hSame
    simpa [Function.comp_def] using congrArg (List.map (! ·)) hSame
  refine ⟨fun h => ?_, hOne bytes⟩
  rw [← complement_complement bytes]
  exact hOne _ h

/-- A byte whose highest bit is clear has the same bits all over only if it is zero. -/
theorem bitsOf_eq_replicate_iff {byte : UInt8} (hClear : ¬ 0x80 ≤ byte) (bit : Bool) :
    bitsOf byte = List.replicate 8 bit ↔ byte = 0 ∧ bit = false := by
  obtain ⟨byte⟩ := byte
  revert byte bit
  decide

/-- The highest bit of a byte is set exactly if the byte is at least `0x80`. -/
theorem msb_toBitVec_iff {byte : UInt8} : byte.toBitVec.msb = true ↔ 0x80 ≤ byte := by
  obtain ⟨byte⟩ := byte
  revert byte
  decide

/-- A string that begins with a clear bit needs its first byte if that is not zero, or if the next one
begins with a set bit. -/
theorem isShortest_cons_cons_iff {first second : UInt8} {rest : Bytes} (hClear : ¬ 0x80 ≤ first) :
    IsShortest (first :: second :: rest) ↔ first ≠ 0 ∨ 0x80 ≤ second := by
  have hTake : (bits (first :: second :: rest)).take 9 = bitsOf first ++ [second.toBitVec.msb] := by
    simp [bits, bitsOf, List.range, List.range.loop, BitVec.msb]
  have hSame : ∀ bit, (bits (first :: second :: rest)).take 9 = List.replicate 9 bit ↔
      (first = 0 ∧ bit = false) ∧ second.toBitVec.msb = bit := by
    intro bit
    rw [hTake, ← bitsOf_eq_replicate_iff hClear]
    constructor
    · intro h
      obtain ⟨hFirst, hSecond⟩ : bitsOf first = List.replicate 8 bit ∧ _ = [bit] :=
        List.append_inj h rfl
      exact ⟨hFirst, List.singleton_inj.1 hSecond⟩
    · rintro ⟨hFirst, rfl⟩
      rw [hFirst]
      rfl
  rw [← msb_toBitVec_iff]
  constructor
  · intro h
    have hMixed := h.mixed.resolve_left (by simp) false
    rw [ne_eq, hSame, and_iff_left rfl, not_and_or, Bool.not_eq_false] at hMixed
    exact hMixed
  · intro h
    refine ⟨List.cons_ne_nil _ _, .inr fun bit hEqual => ?_⟩
    obtain ⟨⟨hFirst, rfl⟩, hSecond⟩ := (hSame bit).1 hEqual
    rcases h with hNonzero | hSet
    · exact hNonzero hFirst
    · exact absurd (hSet.symm.trans hSecond) nofun

end Bytes

namespace ScriptNumber

open Bytes

/-- The number that the bits of a byte string write in two's complement. -/
def signed (bytes : Bytes) : Int :=
  (BitVec.ofNat (8 * bytes.length) (Bytes.toNatBE bytes)).toInt

/-- In two's complement the strings in the upper half stand for negative numbers. -/
theorem signed_eq_ite (bytes : Bytes) :
    signed bytes = if 2 * toNatBE bytes < 256 ^ bytes.length then (toNatBE bytes : Int)
      else toNatBE bytes - (256 ^ bytes.length : Nat) := by
  have hPower : 2 ^ (8 * bytes.length) = 256 ^ bytes.length := by
    rw [Nat.pow_mul]
  unfold signed
  rw [BitVec.toInt_eq_toNat_cond, BitVec.toNat_ofNat, hPower, Nat.mod_eq_of_lt (toNatBE_lt bytes)]

/-- A byte string stands for the number that its bits write in two's complement. -/
theorem value_eq_signed (bytes : Bytes) : value bytes = signed bytes := by
  rw [signed_eq_ite]
  cases bytes with
  | nil => rfl
  | cons first rest =>
    have hHalf := half_le_toNatBE_iff first rest
    have hPower : 256 ^ (first :: rest).length = 2 * (128 * 256 ^ rest.length) := by
      rw [List.length_cons, Nat.pow_succ]
      ring
    have hSum := toNatBE_complement (first :: rest)
    rw [value]
    by_cases hSet : 0x80 ≤ first
    · have hUpper := hHalf.2 hSet
      rw [if_pos hSet, if_neg (by omega), Int.negSucc_eq]
      change -((toNatBE (complement (first :: rest)) : Int) + 1) = _
      omega
    · have hLower := mt hHalf.1 hSet
      rw [if_neg hSet, if_pos (by omega)]
      rfl

/-! ## Turning bits over -/

/-- The shortest form of the distance of a number to `-1` has every bit turned over. -/
theorem encode_not (number : Int) : encode (-1 - number) = complement (encode number) := by
  cases number with
  | ofNat n =>
    have hNot : -1 - Int.ofNat n = .negSucc n := by
      rw [Int.negSucc_eq, Int.ofNat_eq_natCast]
      omega
    rw [hNot]
    rfl
  | negSucc n =>
    have hNot : -1 - Int.negSucc n = .ofNat n := by
      rw [Int.negSucc_eq, Int.ofNat_eq_natCast]
      omega
    rw [hNot]
    exact (complement_complement _).symm

/-- A string with every bit turned over stands for the distance of its number to `-1`. -/
theorem value_complement {bytes : Bytes} (h : bytes ≠ []) :
    value (complement bytes) = -1 - value bytes := by
  have hLength := List.length_pos_iff.2 h
  have hSum := toNatBE_complement bytes
  -- The sum of the two is odd, so they are in different halves.
  have hEven : 256 ^ bytes.length % 2 = 0 :=
    Nat.even_iff.1 (Nat.even_pow.2 ⟨by decide, hLength.ne'⟩)
  rw [value_eq_signed, value_eq_signed, signed_eq_ite, signed_eq_ite, length_complement]
  split_ifs <;> omega

/-- What holds of the natural numbers, and of the distance of a number to `-1` if of the number, holds
of all numbers. -/
theorem not_induction {motive : Int → Prop} (natural : ∀ n : Nat, motive n)
    (not : ∀ number, motive number → motive (-1 - number)) (number : Int) : motive number := by
  cases number with
  | ofNat n => exact natural n
  | negSucc n =>
    have hNot : Int.negSucc n = -1 - n := by
      rw [Int.negSucc_eq]
      omega
    rw [hNot]
    exact not n (natural n)

/-- The shortest form is not empty. -/
theorem encode_ne_nil (number : Int) : encode number ≠ [] := by
  induction number using not_induction with
  | natural n =>
    have hLength := length_encode_natCast n
    exact List.ne_nil_of_length_pos (by rw [hLength, width]; exact Nat.succ_pos _)
  | not number ih =>
    rw [encode_not]
    exact fun hNil => ih (List.map_eq_nil_iff.1 hNil)

/-- A number is what its shortest form stands for. -/
theorem value_encode (number : Int) : value (encode number) = number := by
  induction number using not_induction with
  | natural n => exact value_encode_natCast n
  | not number ih => rw [encode_not, value_complement (encode_ne_nil number), ih]

/-- A number is read back from its shortest form. -/
theorem decode_encode (number : Int) : decode (encode number) = .ok number := by
  rw [decode, value_encode, if_pos rfl]

/-- What is the shortest form of no number is not read as one. -/
theorem decode_of_forall_encode_ne {bytes : Bytes} (h : ∀ number, encode number ≠ bytes) :
    decode bytes = .error (.notMinimal bytes) := by
  rw [decode, if_neg (h (value bytes))]

/-! ## Strings that are read -/

/-- The number of a string that begins with a clear bit is no wider than the string. -/
theorem width_toNatBE_le {first : UInt8} (rest : Bytes) (hClear : ¬ 0x80 ≤ first) :
    width (toNatBE (first :: rest)) ≤ rest.length + 1 := by
  have hHalf := mt (half_le_toNatBE_iff first rest).1 hClear
  refine width_le_of_lt (Nat.succ_pos _) ?_
  rw [two_pow_half]
  exact Nat.not_le.1 hHalf

/-- A string that begins with a clear bit is as long as the width of its number exactly if it is the
shortest one. -/
theorem width_toNatBE_eq_iff {first : UInt8} {rest : Bytes} (hClear : ¬ 0x80 ≤ first) :
    width (toNatBE (first :: rest)) = (first :: rest).length ↔ IsShortest (first :: rest) := by
  have hWidth := width_toNatBE_le rest hClear
  cases rest with
  | nil =>
    have hPos : 0 < width (toNatBE [first]) := Nat.succ_pos _
    have hSingle : IsShortest [first] := ⟨List.cons_ne_nil _ _, .inl rfl⟩
    exact iff_of_true (Nat.le_antisymm hWidth hPos) hSingle
  | cons second rest =>
    have hBound := lt_two_pow_width (toNatBE (first :: second :: rest))
    have hRest := half_le_toNatBE_iff second rest
    have hRead : toNatBE (first :: second :: rest) =
        first.toNat * 256 ^ (rest.length + 1) + toNatBE (second :: rest) :=
      toNatBE_cons first (second :: rest)
    rw [isShortest_cons_cons_iff hClear]
    constructor
    · -- A zero byte in front of a clear bit adds nothing, and the rest is long enough.
      intro hSame
      by_contra hSpare
      obtain ⟨hFirst, hSecond⟩ := not_or.1 hSpare
      have hZero : first.toNat = 0 := congrArg UInt8.toNat (not_not.1 hFirst)
      have hShort := width_toNatBE_le rest hSecond
      rw [hRead, hZero, Nat.zero_mul, Nat.zero_add, List.length_cons, List.length_cons] at hSame
      omega
    · -- Otherwise the number is at least half of what one byte less admits.
      intro hNeeded
      have hLarge : 128 * 256 ^ rest.length ≤ toNatBE (first :: second :: rest) := by
        rw [hRead]
        rcases hNeeded with hFirst | hSecond
        · have hPos : 0 < first.toNat := Nat.pos_of_ne_zero fun h => hFirst (UInt8.toNat_inj.1 h)
          have hDigit : 1 * 256 ^ (rest.length + 1) ≤ first.toNat * 256 ^ (rest.length + 1) :=
            Nat.mul_le_mul_right _ hPos
          rw [Nat.pow_succ] at hDigit ⊢
          omega
        · exact Nat.le_add_left_of_le (hRest.2 hSecond)
      refine Nat.le_antisymm hWidth (Nat.lt_of_not_le fun hShort => ?_)
      have hPower : 2 ^ (8 * width (toNatBE (first :: second :: rest)) - 1) ≤
          2 ^ (8 * (second :: rest).length - 1) := Nat.pow_le_pow_right Nat.two_pos (by omega)
      rw [List.length_cons, two_pow_half] at hPower
      omega

/-- A byte string is the form of what it stands for exactly if it is the shortest one. -/
theorem encode_value_eq_iff (bytes : Bytes) : encode (value bytes) = bytes ↔ IsShortest bytes := by
  induction bytes using complement_induction with
  | empty => exact iff_of_false (encode_ne_nil _) fun h => h.ne_nil rfl
  | clear first rest hClear =>
    rw [← width_toNatBE_eq_iff hClear, value, if_neg hClear]
    constructor
    · intro h
      have hLength := congrArg List.length h
      exact (length_encode_natCast _).symm.trans hLength
    · intro h
      change ofNatBE (width (toNatBE (first :: rest))) (toNatBE (first :: rest)) = _
      rw [h, ofNatBE_toNatBE]
  | flipped bytes hBytes ih =>
    rw [value_complement hBytes, encode_not, isShortest_complement, ← ih]
    exact complement_injective.eq_iff

/-- No string that stands for a number is shorter than the shortest form. -/
theorem length_encode_value_le {bytes : Bytes} (h : bytes ≠ []) :
    (encode (value bytes)).length ≤ bytes.length := by
  induction bytes using complement_induction with
  | empty => exact absurd rfl h
  | clear first rest hClear =>
    rw [value, if_neg hClear]
    exact (length_encode_natCast _).trans_le (width_toNatBE_le _ hClear)
  | flipped bytes hBytes ih =>
    rw [value_complement hBytes, encode_not, length_complement, length_complement]
    exact ih hBytes

/-- An item of zero bytes stands for zero. -/
theorem value_of_isTrue_eq_false {bytes : Bytes} (h : isTrue bytes = false) : value bytes = 0 := by
  have hZeros : bytes = List.replicate bytes.length 0 :=
    List.eq_replicate_of_mem (by simpa [isTrue] using h)
  have hRead : ∀ count, toNatBE (List.replicate count 0) = 0 := by
    intro count
    induction count with
    | zero => rfl
    | succ count ih =>
      rw [List.replicate_succ, toNatBE_cons, ih]
      exact Nat.zero_mul _
  rw [hZeros]
  cases bytes.length with
  | zero => rfl
  | succ count =>
    rw [List.replicate_succ, value, if_neg (by decide), ← List.replicate_succ, hRead]
    rfl

/-- The shortest form of a number is a true item exactly if the number is not zero. -/
theorem isTrue_encode_iff (number : Int) : isTrue (encode number) = true ↔ number ≠ 0 := by
  constructor
  · rintro hTrue rfl
    exact absurd hTrue (by decide)
  · intro hNumber
    by_contra hFalse
    rw [Bool.not_eq_true] at hFalse
    exact hNumber ((value_encode number).symm.trans (value_of_isTrue_eq_false hFalse))

/-! ## The bijection -/

/-- A byte string is read as the number that its bits write in two's complement, if it is the shortest
one; any other is no number. -/
theorem decode_eq_ite (bytes : Bytes) :
    decode bytes = if IsShortest bytes then .ok (signed bytes) else .error (.notMinimal bytes) := by
  rw [← value_eq_signed]
  simp only [decode, encode_value_eq_iff]

/-- Numbers and the shortest strings in two's complement belong together one to one. A number is read
back from its form; a string is read exactly if it is the shortest one, namely as the number that its
bits write, whose form it is; no other string that writes the number is shorter. The form of a number
is a true item exactly if the number is not zero. -/
theorem decode_iff_isShortest (bytes : Bytes) (number : Int) :
    decode (encode number) = .ok number ∧
      ((∃ read, decode bytes = .ok read) ↔ IsShortest bytes) ∧
      (decode bytes = .ok number ↔ IsShortest bytes ∧ signed bytes = number) ∧
      (decode bytes = .ok number ↔ encode number = bytes) ∧
      (bytes ≠ [] → signed bytes = number → (encode number).length ≤ bytes.length) ∧
      (isTrue (encode number) = true ↔ number ≠ 0) := by
  have hRead : decode (encode number) = .ok number := by
    rw [decode, value_encode, if_pos rfl]
  have hForm : decode bytes = .ok number ↔ encode number = bytes :=
    ⟨encode_of_decode, fun h => h ▸ hRead⟩
  refine ⟨hRead, ?_, ?_, hForm, ?_, isTrue_encode_iff number⟩
  · rw [decode_eq_ite]
    split_ifs with hShortest
    · exact iff_of_true ⟨_, rfl⟩ hShortest
    · simp [hShortest]
  · rw [decode_eq_ite]
    split_ifs with hShortest
    · rw [Except.ok.injEq, and_iff_right hShortest]
    · simp [hShortest]
  · rintro hBytes rfl
    rw [← value_eq_signed]
    exact length_encode_value_le hBytes

example : decode [0x80] = .ok (-128) ∧ decode [0xff, 0x7f] = .ok (-129) ∧
    decode [0x00, 0x80] = .ok 128 ∧ decode [0x00, 0x7f] = .error (.notMinimal [0x00, 0x7f]) := by
  decide

end ScriptNumber

end UtxoChain
