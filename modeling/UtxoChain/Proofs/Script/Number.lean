import UtxoChain.Proofs.Bytes.Positional
import UtxoChain.Proofs.Verdict
import UtxoChain.Script.Number

/-!
# The numbers that scripts push

The shortest form of a natural number leaves the highest bit of its first byte clear, so the number is
read back from it. The form of a lock is short.
-/

namespace UtxoChain.ScriptNumber

/-- The width of a natural number has a bit to spare. -/
theorem lt_two_pow_width (n : Nat) : n < 2 ^ (8 * width n - 1) := by
  have hBits : n.log2 + 1 ≤ 8 * width n - 1 := by
    unfold width
    omega
  calc n < 2 ^ (n.log2 + 1) := Nat.lt_log2_self
    _ ≤ 2 ^ (8 * width n - 1) := Nat.pow_le_pow_right Nat.two_pos hBits

/-- A number that fits some bytes with a bit to spare has a width of at most as many. -/
theorem width_le_of_lt {n bytes : Nat} (hBytes : 0 < bytes) (h : n < 2 ^ (8 * bytes - 1)) :
    width n ≤ bytes := by
  have hBits : n.log2 < 8 * bytes - 1 := by
    by_cases hZero : n = 0
    · rw [hZero, Nat.log2_zero]
      omega
    · exact (Nat.log2_lt hZero).2 h
  unfold width
  omega

/-- A word of 64 bits has a width of at most nine bytes: it may need a bit to spare. -/
theorem width_le_nine {n : Nat} (h : n < 2 ^ 64) : width n ≤ 9 := by
  apply width_le_of_lt (by decide)
  exact Nat.lt_of_lt_of_le h (Nat.pow_le_pow_right Nat.two_pos (by decide))

/-- The shortest form of a natural number is as long as its width. -/
theorem length_encode_natCast (n : Nat) : (encode n).length = width n :=
  Bytes.length_ofNatBE (width n) n

/-- The shortest form of a natural number stands for that number. -/
theorem value_encode_natCast (n : Nat) : value (encode n) = n := by
  change value (Bytes.ofNatBE (width n) n) = n
  have hBits := lt_two_pow_width n
  have hPower : (256 : Nat) ^ width n = 2 ^ (8 * width n) := by
    rw [Nat.pow_mul]
  have hRead : Bytes.toNatBE (Bytes.ofNatBE (width n) n) = n := by
    refine Bytes.toNatBE_ofNatBE_of_lt (Nat.lt_of_lt_of_le hBits ?_)
    rw [hPower]
    exact Nat.pow_le_pow_right Nat.two_pos (Nat.sub_le _ _)
  have hLength := Bytes.length_ofNatBE (width n) n
  cases hBytes : Bytes.ofNatBE (width n) n with
  | nil => rw [← hRead, hBytes]; rfl
  | cons first rest =>
    -- A first byte with its highest bit set would make the number too large for the spare bit.
    have hClear : ¬ 0x80 ≤ first := by
      rw [hBytes] at hRead hLength
      rw [← Bytes.half_le_toNatBE_iff first rest, ← Bytes.two_pow_half, ← List.length_cons, hLength,
        hRead]
      exact Nat.not_le.2 hBits
    rw [value, if_neg hClear, ← hBytes, hRead]
    rfl

/-- A natural number is read back from its shortest form. -/
theorem decode_encode_natCast (n : Nat) : decode (encode n) = .ok n := by
  rw [decode, value_encode_natCast, if_pos rfl]

/-- What is read as a number is the shortest form of that number. -/
theorem encode_of_decode {bytes : Bytes} {number : Int} (h : decode bytes = .ok number) :
    encode number = bytes := by
  unfold decode at h
  split_ifs at h with hShortest
  rw [← Except.ok.inj h, hShortest]

/-- A number is a word exactly if it is a natural number below the bound. -/
theorem toWord_eq_ok_iff {size : WordSize} {number : Int} {n : Nat} :
    toWord size number = .ok n ↔ number = n ∧ n < size.bound := by
  unfold toWord
  constructor
  · intro h
    split_ifs at h with hFits
    have hNat := Except.ok.inj h
    omega
  · rintro ⟨rfl, hLess⟩
    rw [if_pos ⟨Int.natCast_nonneg n, Int.ofNat_lt.2 hLess⟩, Int.toNat_natCast]

end UtxoChain.ScriptNumber
