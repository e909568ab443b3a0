import UtxoChain.Wire.Decoder

/-!
# Variable-length integers

A number below `fd` is its own byte. A larger one follows a marker: `fd` before two bytes, `fe`
before four and `ff` before eight, most significant first. Only the shortest form of a number is
read.
-/

namespace UtxoChain

namespace VarInt

/-- The shortest form of a number. -/
def encode (value : UInt64) : Bytes :=
  let n := value.toNat
  if n < 0xfd then [UInt8.ofNat n]
  else if n < UInt16.size then 0xfd :: Bytes.ofNatBE 2 n
  else if n < UInt32.size then 0xfe :: Bytes.ofNatBE 4 n
  else 0xff :: Bytes.ofNatBE 8 n

/-- The rest of the form with the given marker, whose values start at `least`. -/
def decodeAfter (marker : UInt8) (width least : Nat) : Decoder UInt64 := do
  let n ← Decoder.natBE width
  if n < least then throw (.nonMinimal (.varInt n marker)) else return UInt64.ofNat n

/-- The number at the cursor. -/
def decoder : Decoder UInt64 := do
  let first ← Decoder.byte
  if first < 0xfd then return first.toUInt64
  else if first = 0xfd then decodeAfter first 2 0xfd
  else if first = 0xfe then decodeAfter first 4 UInt16.size
  else decodeAfter first 8 UInt32.size

/-- The number that a whole byte string writes. -/
def decode (bytes : Bytes) : Except Error UInt64 :=
  decoder.decodeAll bytes

end VarInt

namespace Decoder

/-- A count of items, which is a variable-length integer. -/
def count : Decoder Nat := do
  return (← VarInt.decoder).toNat

/-- A byte string after its length. Where the length reaches past the end, only the length is
read. -/
def countedBytes : Decoder Bytes := do
  let length ← count
  bytesOr (fun left => .invalidSize (.declaredLength length left)) length

/-- A list after its length. -/
def counted {α : Type} (decoder : Decoder α) : Decoder (List α) := do
  replicate decoder (← count)

end Decoder

/-- A byte string after its length. -/
def Bytes.counted (bytes : Bytes) : Bytes :=
  VarInt.encode (UInt64.ofNat bytes.length) ++ bytes

/-- A list after its length, each item written in turn. -/
def Bytes.countedList {α : Type} (encode : α → Bytes) (items : List α) : Bytes :=
  VarInt.encode (UInt64.ofNat items.length) ++ items.flatMap encode

end UtxoChain
