import Mathlib.Algebra.Order.Ring.Nat
import Mathlib.Data.List.Induction
import Mathlib.Tactic.Ring
import UtxoChain.Bytes.Basic

/-!
# Numbers in base 256

Writing a number of at most `width` digits and reading it back gives the number, and reading a string
of `width` bytes and writing the number gives the string: the two are inverse to each other between
the numbers below `256 ^ width` and the strings of `width` bytes.
-/

namespace UtxoChain.Bytes

/-- Digits put in front of a tail stand before it. -/
theorem prependNat_eq (width n : Nat) (tail : Bytes) :
    prependNat width n tail = ofNatBE width n ++ tail := by
  unfold ofNatBE
  induction width generalizing n tail with
  | zero => rfl
  | succ width ih =>
    unfold prependNat
    rw [ih, ih (n / 256) [UInt8.ofNat n], List.append_assoc]
    rfl

/-- The last digit of a number stands last. -/
theorem ofNatBE_succ (width n : Nat) :
    ofNatBE (width + 1) n = ofNatBE width (n / 256) ++ [UInt8.ofNat n] := by
  rw [← prependNat_eq]
  rfl

/-- No bytes write zero. -/
@[simp]
theorem toNatBE_nil : toNatBE [] = 0 := rfl

/-- A byte more at the end is a digit more. -/
theorem toNatBE_concat (bytes : Bytes) (byte : UInt8) :
    toNatBE (bytes ++ [byte]) = toNatBE bytes * 256 + byte.toNat := by
  simp [toNatBE]

/-- A byte more in front is a digit more above the others. -/
theorem toNatBE_cons (byte : UInt8) (bytes : Bytes) :
    toNatBE (byte :: bytes) = byte.toNat * 256 ^ bytes.length + toNatBE bytes := by
  induction bytes using List.reverseRecOn with
  | nil => simp [toNatBE]
  | append_singleton bytes last ih =>
    rw [← List.cons_append, toNatBE_concat, toNatBE_concat, ih, List.length_append,
      List.length_singleton, Nat.pow_succ]
    ring

/-- A string of some bytes writes a number of as many digits. -/
theorem toNatBE_lt (bytes : Bytes) : toNatBE bytes < 256 ^ bytes.length := by
  -- The last byte is the lowest digit, so strings are taken apart at their end.
  induction bytes using List.reverseRecOn with
  | nil => simp
  | append_singleton bytes byte ih =>
    have hByte : byte.toNat < 256 := byte.toNat_lt
    rw [toNatBE_concat, List.length_append, List.length_singleton, Nat.pow_succ]
    omega

/-- Reading the digits of a number gives the number, up to those that were left out. -/
theorem toNatBE_ofNatBE (width n : Nat) : toNatBE (ofNatBE width n) = n % 256 ^ width := by
  induction width generalizing n with
  | zero => simp [ofNatBE, prependNat, Nat.mod_one]
  | succ width ih =>
    have hPower : 256 ^ (width + 1) = 256 * 256 ^ width := Nat.pow_succ'
    rw [ofNatBE_succ, toNatBE_concat, ih, UInt8.toNat_ofNat', hPower, Nat.mod_mul]
    omega

/-- A number that has at most `width` digits is read back from them. -/
theorem toNatBE_ofNatBE_of_lt {width n : Nat} (h : n < 256 ^ width) :
    toNatBE (ofNatBE width n) = n := by
  rw [toNatBE_ofNatBE, Nat.mod_eq_of_lt h]

/-- Numbers that have at most `width` digits are told apart by them. -/
theorem ofNatBE_inj {width m n : Nat} (hm : m < 256 ^ width) (hn : n < 256 ^ width) :
    ofNatBE width m = ofNatBE width n ↔ m = n := by
  constructor
  · intro h
    rw [← toNatBE_ofNatBE_of_lt hm, h, toNatBE_ofNatBE_of_lt hn]
  · intro h
    rw [h]

/-- The digits of the number that a string writes are the string. -/
theorem ofNatBE_toNatBE (bytes : Bytes) : ofNatBE bytes.length (toNatBE bytes) = bytes := by
  induction bytes using List.reverseRecOn with
  | nil => rfl
  | append_singleton bytes byte ih =>
    have hByte : byte.toNat < 256 := byte.toNat_lt
    have hHigh : (toNatBE bytes * 256 + byte.toNat) / 256 = toNatBE bytes := by omega
    have hLow : UInt8.ofNat (toNatBE bytes * 256 + byte.toNat) = byte := by
      rw [← UInt8.toNat_inj, UInt8.toNat_ofNat']
      omega
    rw [toNatBE_concat, List.length_append, List.length_singleton, ofNatBE_succ, hHigh, hLow, ih]

/-- The highest bit of a string is set exactly if the string is at least half of what its length
admits. -/
theorem half_le_toNatBE_iff (first : UInt8) (rest : Bytes) :
    128 * 256 ^ rest.length ≤ toNatBE (first :: rest) ↔ 0x80 ≤ first := by
  have hRest := toNatBE_lt rest
  rw [toNatBE_cons, UInt8.le_iff_toNat_le]
  constructor
  · intro h
    by_contra hClear
    have hFirst : first.toNat * 256 ^ rest.length ≤ 127 * 256 ^ rest.length :=
      Nat.mul_le_mul_right _ (Nat.le_of_lt_succ (Nat.not_le.1 hClear))
    omega
  · intro h
    exact Nat.le_add_right_of_le (Nat.mul_le_mul_right _ h)

/-- Half of what a length admits is a power of two. -/
theorem two_pow_half (count : Nat) : 2 ^ (8 * (count + 1) - 1) = 128 * 256 ^ count := by
  rw [show 8 * (count + 1) - 1 = 7 + 8 * count by omega, Nat.pow_add, Nat.pow_mul]

end UtxoChain.Bytes
