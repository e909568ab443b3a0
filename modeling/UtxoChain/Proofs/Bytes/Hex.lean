import UtxoChain.Error.Basic
import UtxoChain.Proofs.Verdict

/-!
# Reading hexadecimal text

The text that is written for a byte string is read back as that string. Whatever is read as bytes
has two digits, each a byte of UTF-8, for each of them.
-/

namespace UtxoChain

namespace Text

/-- From a place in a byte array on, the bytes that follow are put behind those already listed. -/
theorem toList_loop_append (before rest listed : Bytes) :
    ByteArray.toList.loop ⟨(before ++ rest).toArray⟩ before.length listed =
      listed.reverse ++ rest := by
  induction rest generalizing before listed with
  | nil =>
    unfold ByteArray.toList.loop
    rw [if_neg (by simp [ByteArray.size]), List.append_nil]
  | cons byte rest ih =>
    have hFound : ByteArray.get! ⟨(before ++ byte :: rest).toArray⟩ before.length = byte := by
      simp [ByteArray.get!]
    have hNext := ih (before ++ [byte]) (byte :: listed)
    rw [List.append_assoc, List.singleton_append, List.length_append,
      List.length_singleton] at hNext
    unfold ByteArray.toList.loop
    rw [if_pos (by simp [ByteArray.size]), hFound, hNext, List.reverse_cons, List.append_assoc,
      List.singleton_append]

/-- The bytes of a text are the UTF-8 forms of its characters, one after the other. -/
theorem toList_toUTF8 (text : String) :
    text.toUTF8.toList = text.toList.flatMap String.utf8EncodeChar := by
  have hBytes : text.toUTF8 = ⟨([] ++ text.toList.flatMap String.utf8EncodeChar).toArray⟩ := by
    calc text.toUTF8 = (String.ofList text.toList).toByteArray := by rw [String.ofList_toList]; rfl
      _ = text.toList.utf8Encode := String.toByteArray_ofList
      _ = _ := ByteArray.ext List.data_toByteArray
  rw [hBytes]
  exact toList_loop_append [] _ []

/-- A character takes at most four bytes. -/
theorem length_toUTF8_le (text : String) : text.toUTF8.toList.length ≤ 4 * text.length := by
  have hEach : ∀ chars : List Char,
      (chars.flatMap String.utf8EncodeChar).length ≤ 4 * chars.length := by
    intro chars
    induction chars with
    | nil => exact Nat.le_refl _
    | cons c chars ih =>
      have hChar : (String.utf8EncodeChar c).length ≤ 4 := by
        rw [String.length_utf8EncodeChar]
        exact c.utf8Size_le_four
      rw [List.flatMap_cons, List.length_append, List.length_cons]
      omega
  rw [toList_toUTF8, ← String.length_toList]
  exact hEach text.toList

end Text

namespace Hex

/-- Each of the sixteen digits is written as one byte and read back from it. -/
theorem digit_facts {n : UInt8} (h : n < 16) :
    ∃ code, String.utf8EncodeChar (digit n) = [code] ∧ digitValue? code = some n := by
  have table : ∀ n : Fin 16, ∃ code ∈ String.utf8EncodeChar (digit (UInt8.ofNat n)),
      String.utf8EncodeChar (digit (UInt8.ofNat n)) = [code] ∧
        digitValue? code = some (UInt8.ofNat n) := by
    decide
  -- The table speaks of numbers below sixteen, whose bytes are the digits.
  obtain ⟨code, -, hCode⟩ := table ⟨n.toNat, h⟩
  rw [UInt8.ofNat_toNat] at hCode
  exact ⟨code, hCode⟩

/-- A byte has two digits. -/
theorem nibbles_lt (byte : UInt8) : byte / 16 < 16 ∧ byte % 16 < 16 := by
  rw [UInt8.lt_iff_toNat_lt, UInt8.toNat_div, UInt8.lt_iff_toNat_lt, UInt8.toNat_mod]
  exact ⟨Nat.div_lt_of_lt_mul byte.toNat_lt, Nat.mod_lt _ (by decide)⟩

/-- The digits of a byte string are read back as the string, wherever they stand. -/
theorem decodePairs_digits (bytes : Bytes) (position : Nat) :
    decodePairs position ((bytes.flatMap digits).flatMap String.utf8EncodeChar) = .ok bytes := by
  induction bytes generalizing position with
  | nil => rfl
  | cons byte bytes ih =>
    obtain ⟨hHigh, hLow⟩ := nibbles_lt byte
    obtain ⟨high, hHighCode, hHighValue⟩ := digit_facts hHigh
    obtain ⟨low, hLowCode, hLowValue⟩ := digit_facts hLow
    have hByte : byte / 16 * 16 + byte % 16 = byte := by
      rw [← UInt8.toNat_inj]
      simp only [UInt8.toNat_add, UInt8.toNat_mul, UInt8.toNat_div, UInt8.toNat_mod]
      have := byte.toNat_lt
      simp
      omega
    simp only [List.flatMap_cons, digits, hHighCode, hLowCode, List.cons_append, List.nil_append,
      decodePairs, digitAt, hHighValue, hLowValue, bind, Except.bind, ih, pure, Except.pure, hByte]

/-- Pairs of digits are read as half as many bytes. -/
theorem length_of_decodePairs {codes bytes : Bytes} {position : Nat}
    (h : decodePairs position codes = .ok bytes) : codes.length = 2 * bytes.length := by
  fun_induction decodePairs position codes generalizing bytes with
  | case1 position =>
    rw [← Except.ok.inj h]
    rfl
  | case2 => exact absurd h nofun
  | case3 position high low rest ih =>
    obtain ⟨_, -, h⟩ := bind_eq_ok_iff.1 h
    obtain ⟨_, -, h⟩ := bind_eq_ok_iff.1 h
    obtain ⟨tail, hTail, h⟩ := bind_eq_ok_iff.1 h
    rw [← Except.ok.inj h, List.length_cons, List.length_cons, List.length_cons, ih hTail]
    omega

/-- Byte strings are read back from their text. -/
theorem decode_encode (bytes : Bytes) : decode (encode bytes) = .ok bytes := by
  have hPairs := decodePairs_digits bytes 0
  have hEven := length_of_decodePairs hPairs
  unfold decode
  rw [Text.toList_toUTF8, encode, String.toList_ofList]
  dsimp only
  rw [if_neg (by omega), hPairs]

/-- A text is read as half as many bytes as it has itself. -/
theorem length_of_decode {text : String} {bytes : Bytes} (h : decode text = .ok bytes) :
    text.toUTF8.toList.length = 2 * bytes.length := by
  unfold decode at h
  dsimp only at h
  split_ifs at h
  exact length_of_decodePairs h

end Hex

/-- Byte strings are read back from their text. -/
theorem bytesOfHex_encode (bytes : Bytes) : bytesOfHex (Hex.encode bytes) = .ok bytes := by
  unfold bytesOfHex
  rw [Hex.decode_encode]
  rfl

end UtxoChain
