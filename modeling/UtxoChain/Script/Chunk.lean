import UtxoChain.Script.Number
import UtxoChain.Text.Blank
import UtxoChain.Wire.Format

/-!
# Chunks and scripts

A script is a list of chunks. A chunk is an opcode byte, with a payload if it pushes one. In binary,
a direct push is followed by its payload and a counted push by a count and its payload. In text, a
push is a hexadecimal literal and every other opcode is its name; the text does not tell which push
opcode was used, so reading it chooses the shortest counted one.
-/

namespace UtxoChain

/-- One opcode byte, with its payload if it has one. -/
structure Chunk where
  /-- The opcode byte. -/
  opcode : UInt8
  /-- The bytes that the chunk pushes. -/
  payload : Option Bytes
deriving DecidableEq, Inhabited

namespace Chunk

/-- The opcode of a chunk, if its byte is in the table. -/
def op? (chunk : Chunk) : Option Opcode :=
  Opcode.ofByte? chunk.opcode

/-- The chunk carries a payload. -/
def isPush (chunk : Chunk) : Bool :=
  chunk.payload.isSome

/-- The chunk of an opcode without payload. -/
def ofOpcode (op : Opcode) : Chunk :=
  ⟨op.toByte, none⟩

/-- A push opcode with a payload of the given length is in its shortest form. A direct push is as
long as its byte says, and a counted push is too long for the counted push before it. -/
def checkLength (opcode : UInt8) (length : Nat) : Except Error Unit :=
  let within (fits : Bool) : Except Error Unit :=
    if fits then .ok () else .error (.invalidSize (.pushLength opcode length))
  match Opcode.ofByte? opcode with
  | none => within (length == opcode.toNat)
  | some .pushData1 => within (length ≤ 0xff)
  | some .pushData2 =>
    if length ≤ 0xff then .error (.nonMinimal (.push opcode length)) else within (length ≤ 0xffff)
  | some .pushData4 =>
    if length ≤ 0xffff then .error (.nonMinimal (.push opcode length))
    else within (length ≤ 0xffffffff)
  | some _ => within false

/-- The chunk with the given parts: exactly the push opcodes carry a payload, of a length that suits
them. -/
def ofParts (opcode : UInt8) (payload : Option Bytes) : Except Error Chunk :=
  match payload, Opcode.isPushData opcode with
  | some data, true => do
    checkLength opcode data.length
    return ⟨opcode, payload⟩
  | none, false => return ⟨opcode, payload⟩
  | none, true => .error (.invalidEncoding (.missing opcode))
  | some _, false => .error (.invalidEncoding (.unexpected opcode))

/-- The shortest counted push of a payload. -/
def ofData (data : Bytes) : Except Error Chunk :=
  if data.length ≤ 0xff then .ok ⟨Opcode.pushData1.toByte, some data⟩
  else if data.length ≤ 0xffff then .ok ⟨Opcode.pushData2.toByte, some data⟩
  else if data.length ≤ 0xffffffff then .ok ⟨Opcode.pushData4.toByte, some data⟩
  else .error (.invalidSize (.pushTooLong data.length))

/-- The chunk that pushes a number: an opcode of its own for -1 to 16, and a push for the others. -/
def ofNumber (number : Int) : Except Error Chunk :=
  if number = -1 then .ok (ofOpcode .negate1)
  else
    match if 0 ≤ number then Opcode.ofSmallInt? number.toNat else none with
    | some op => .ok (ofOpcode op)
    | none => ofData (ScriptNumber.encode number)

/-- The count in front of a payload; a direct push has none. -/
def lengthPrefix (opcode : UInt8) (length : Nat) : Bytes :=
  match Opcode.ofByte? opcode with
  | some .pushData1 => Bytes.ofNatBE 1 length
  | some .pushData2 => Bytes.ofNatBE 2 length
  | some .pushData4 => Bytes.ofNatBE 4 length
  | _ => []

/-- The bytes that write a chunk. -/
def encode (chunk : Chunk) : Bytes :=
  chunk.opcode :: match chunk.payload with
  | none => []
  | some data => lengthPrefix chunk.opcode data.length ++ data

/-- The length of the payload that follows an opcode byte, if the opcode pushes one. -/
def payloadLength (opcode : UInt8) : Decoder (Option Nat) :=
  if Opcode.isDirectPush opcode then pure (some opcode.toNat)
  else
    match Opcode.ofByte? opcode with
    | some .pushData1 => some <$> Decoder.natBE 1
    | some .pushData2 => some <$> Decoder.natBE 2
    | some .pushData4 => some <$> Decoder.natBE 4
    | _ => pure none

/-- The chunk at the cursor. Its length is looked at before its payload, and its payload is read
before its form is judged. -/
def decoder : Decoder Chunk := do
  let opcode ← Decoder.byte
  match ← payloadLength opcode with
  | none => return ⟨opcode, none⟩
  | some length =>
    let fault left := Error.invalidSize (.chunkLength opcode length left)
    let data ← Decoder.bytesOr fault length
    Decoder.ofExcept (ofParts opcode (some data))

instance : Wire Chunk := ⟨encode, decoder⟩

/-- The text of a chunk: a literal, or the displayed name of its opcode. -/
def toText (chunk : Chunk) : String :=
  match chunk.payload with
  | some data => "0x" ++ Hex.encode data
  | none => Opcode.display chunk.opcode

/-- The chunk that one word writes: a literal, or the name of an opcode that pushes no payload. -/
def ofText (word : String) : Except Error Chunk :=
  match word.toList with
  | '0' :: 'x' :: digits => do
    ofData (← bytesOfHex (String.ofList digits))
  | _ =>
    match Opcode.ofName? word with
    | none => .error (.invalidOpcode (.unknownName word))
    | some op =>
      if Opcode.isPushData op.toByte then .error (.invalidEncoding (.literalRequired word))
      else .ok (ofOpcode op)

end Chunk

/-- A list of chunks. -/
structure Script where
  /-- The chunks in order. -/
  chunks : List Chunk
deriving DecidableEq, Inhabited

namespace Script

/-- The script without chunks. -/
def empty : Script := ⟨[]⟩

/-- The bytes that write a script. -/
def encode (script : Script) : Bytes :=
  script.chunks.flatMap Chunk.encode

/-- At most `limit` chunks, up to the end of the input. -/
def chunksUpTo : Nat → Decoder (List Chunk)
  | 0 => pure []
  | limit + 1 => do
    if ← Decoder.atEnd then return []
    else
      let chunk ← Chunk.decoder
      let others ← chunksUpTo limit
      return chunk :: others

/-- The script that takes up the rest of the input. A chunk takes at least one byte, so there are no
more chunks than bytes. -/
def decoder : Decoder Script := do
  return ⟨← chunksUpTo (← Decoder.remaining)⟩

instance : Wire Script := ⟨encode, decoder⟩

/-- The script that a byte string writes. -/
def ofBytes (bytes : Bytes) : Except Error Script :=
  Wire.decode bytes

/-- The text of a script: the texts of its chunks with one space between them. -/
def toText (script : Script) : String :=
  String.intercalate " " (script.chunks.map Chunk.toText)

/-- The script whose chunks the words of a text write. -/
def ofText (text : String) : Except Error Script := do
  return ⟨← (Text.words text).mapM Chunk.ofText⟩

end Script

end UtxoChain
