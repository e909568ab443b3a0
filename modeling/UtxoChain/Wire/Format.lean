import UtxoChain.Wire.VarInt

/-!
# Wire formats

A type with a wire format has an encoding as bytes and a decoder that reads it back. A whole byte
string, or the hexadecimal text of one, is a value only if nothing is left over.
-/

namespace UtxoChain

/-- A binary form for the values of a type. -/
class Wire (α : Type) where
  /-- The bytes that write a value. -/
  encode : α → Bytes
  /-- The reader of a value at a cursor. -/
  decoder : Decoder α

namespace Wire

variable {α : Type} [Wire α]

/-- The value that a whole byte string writes. -/
def decode (bytes : Bytes) : Except Error α :=
  decoder.decodeAll bytes

/-- The hexadecimal text of the bytes that write a value. -/
def toHex (value : α) : String :=
  Hex.encode (encode value)

/-- The value that a whole hexadecimal text writes. -/
def ofHex (text : String) : Except Error α := do
  decode (← bytesOfHex text)

end Wire

end UtxoChain
