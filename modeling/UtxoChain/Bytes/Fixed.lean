import UtxoChain.Bytes.Hex

/-!
# Byte strings of a fixed width

Digests and targets have 32 bytes, compressed public keys 33, compact signatures 64. The width is
part of the type, so that no reader of such a value has to check it again.
-/

namespace UtxoChain

/-- A byte string of exactly `width` bytes. -/
structure FixedBytes (width : Nat) where
  /-- The bytes, first byte first. -/
  toBytes : Bytes
  /-- The string has the stated width. -/
  length_toBytes : toBytes.length = width
deriving DecidableEq

namespace FixedBytes

/-- A string of fixed width is told by its bytes. -/
theorem toBytes_inj {width : Nat} {one other : FixedBytes width} :
    one.toBytes = other.toBytes ↔ one = other := by
  constructor
  · intro h
    cases one
    cases other
    simpa using h
  · rintro rfl
    rfl

/-- A byte string as one of fixed width, when it has that width. -/
def ofBytes? {width : Nat} (bytes : Bytes) : Option (FixedBytes width) :=
  if h : bytes.length = width then some ⟨bytes, h⟩ else none

/-- A byte string is read as the string of fixed width that has its bytes. -/
theorem ofBytes?_eq_some_iff {width : Nat} {bytes : Bytes} {fixed : FixedBytes width} :
    ofBytes? bytes = some fixed ↔ bytes = fixed.toBytes := by
  unfold ofBytes?
  constructor
  · intro h
    split at h
    · rw [← Option.some.inj h]
    · exact absurd h (by simp)
  · rintro rfl
    rw [dif_pos fixed.length_toBytes]

/-- The string of `width` zero bytes. -/
def zero {width : Nat} : FixedBytes width :=
  ⟨List.replicate width 0, List.length_replicate⟩

instance {width : Nat} : Inhabited (FixedBytes width) := ⟨zero⟩

/-- The `width` low base-256 digits of a number, most significant first. -/
def ofNat {width : Nat} (n : Nat) : FixedBytes width :=
  ⟨Bytes.ofNatBE width n, Bytes.length_ofNatBE width n⟩

/-- The number that the bytes write, most significant digit first. -/
def toNat {width : Nat} (fixed : FixedBytes width) : Nat :=
  Bytes.toNatBE fixed.toBytes

/-- Every byte is zero. -/
def isZero {width : Nat} (fixed : FixedBytes width) : Bool :=
  Bytes.isZero fixed.toBytes

/-- The lower-case hexadecimal text, in the order of the bytes. -/
def toHex {width : Nat} (fixed : FixedBytes width) : String :=
  Hex.encode fixed.toBytes

instance {width : Nat} : ToString (FixedBytes width) := ⟨toHex⟩

/-- The text that names the width beside the digits. -/
def describe {width : Nat} (fixed : FixedBytes width) : String :=
  s!"FixedBuf<{width}>(" ++ fixed.toHex ++ ")"

/-- The order of the strings byte by byte, which is that of the numbers they write. -/
def compareBytes {width : Nat} (left right : FixedBytes width) : Ordering :=
  compare left.toNat right.toNat

end FixedBytes

/-- A 256-bit digest: transaction ids, block ids, Merkle roots, targets and nonces. -/
abbrev Hash256 := FixedBytes 32

/-- A compressed point of the curve. -/
abbrev PublicKey := FixedBytes 33

/-- The two scalars of a signature, each in 32 bytes. -/
abbrev CompactSignature := FixedBytes 64

end UtxoChain
