/-!
# Byte strings and positional numbers

A byte string is a list of bytes. Numbers are written in base 256: `ofNatBE width n` gives the
`width` low digits of `n` with the most significant digit first, and `toNatBE` reads such a string
back. The little-endian forms are the reversed ones.
-/

namespace UtxoChain

/-- A byte string, first byte first. -/
abbrev Bytes := List UInt8

namespace Bytes

/-- The number that a byte string writes in base 256, most significant digit first. -/
def toNatBE (bytes : Bytes) : Nat :=
  bytes.foldl (fun n byte => n * 256 + byte.toNat) 0

/-- The number that a byte string writes in base 256, least significant digit first. -/
def toNatLE (bytes : Bytes) : Nat :=
  toNatBE bytes.reverse

/-- The `width` low digits of `n` put in front of `tail`, most significant digit first. -/
def prependNat : Nat → Nat → Bytes → Bytes
  | 0, _, tail => tail
  | width + 1, n, tail => prependNat width (n / 256) (UInt8.ofNat n :: tail)

/-- The `width` low digits of `n`, most significant digit first. -/
def ofNatBE (width n : Nat) : Bytes :=
  prependNat width n []

/-- The `width` low digits of `n`, least significant digit first. -/
def ofNatLE (width n : Nat) : Bytes :=
  (ofNatBE width n).reverse

/-- The least number with more than `width` digits. -/
def bound (width : Nat) : Nat :=
  Nat.pow 256 width

/-- Putting digits in front of a tail adds `width` bytes to it. -/
theorem length_prependNat (width n : Nat) (tail : Bytes) :
    (prependNat width n tail).length = width + tail.length := by
  induction width generalizing n tail with
  | zero => simp [prependNat]
  | succ width ih => simp [prependNat, ih]; omega

/-- A number of `width` digits takes `width` bytes. -/
@[simp]
theorem length_ofNatBE (width n : Nat) : (ofNatBE width n).length = width := by
  simp [ofNatBE, length_prependNat]

/-- A number of `width` digits takes `width` bytes in either order. -/
@[simp]
theorem length_ofNatLE (width n : Nat) : (ofNatLE width n).length = width := by
  simp [ofNatLE]

/-- The first `count` bytes and the rest, when there are that many. -/
def split? (count : Nat) (bytes : Bytes) : Option (Bytes × Bytes) :=
  let front := bytes.take count
  if front.length = count then some (front, bytes.drop count) else none

/-- Splitting succeeds exactly when the string is long enough. -/
theorem split?_eq (count : Nat) (bytes : Bytes) :
    split? count bytes =
      if count ≤ bytes.length then some (bytes.take count, bytes.drop count) else none := by
  simp only [split?, List.length_take]
  by_cases h : count ≤ bytes.length
  · simp [h]
  · simp only [h, if_false]
    rw [if_neg]
    omega

/-- A string holds nothing but zero bytes. -/
def isZero (bytes : Bytes) : Bool :=
  bytes.all (· == 0)

end Bytes

end UtxoChain
