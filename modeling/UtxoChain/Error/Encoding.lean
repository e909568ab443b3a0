import UtxoChain.Bytes.Fixed
import UtxoChain.Script.Opcode
import UtxoChain.Text.Quoted

/-!
# Faults of encodings

The causes for which bytes or texts are refused before they mean anything, one type for each class
of cause. The `message` of a fault is its whole wording, the name of the class included.
-/

namespace UtxoChain

/-- A length that does not fit what it describes. -/
inductive SizeFault
  /-- A value of fixed width was given another number of bytes. -/
  | fixedWidth (expected actual : Nat)
  /-- A length prefix reaches past the end of the input. -/
  | declaredLength (declared remaining : Nat)
  /-- The count of a push chunk reaches past the end of the input. -/
  | chunkLength (opcode : UInt8) (declared remaining : Nat)
  /-- The payload of a push chunk has a length that its opcode cannot express. -/
  | pushLength (opcode : UInt8) (length : Nat)
  /-- A payload is too long for every push opcode. -/
  | pushTooLong (length : Nat)
  /-- A signature with its hash type must have 65 bytes. -/
  | signature (actual : Nat)
deriving DecidableEq

/-- The wording of a fault of size. -/
def SizeFault.message : SizeFault → String
  | .fixedWidth expected actual => s!"invalid size: expected {expected} bytes, got {actual}"
  | .declaredLength declared remaining =>
    s!"invalid size: declared length {declared} exceeds remaining {remaining}"
  | .chunkLength opcode declared remaining =>
    "invalid size: " ++ Opcode.display opcode
      ++ s!" declares {declared} bytes, {remaining} remaining"
  | .pushLength opcode length =>
    "invalid size: " ++ Opcode.display opcode ++ s!" with {length} byte payload"
  | .pushTooLong length => s!"invalid size: push of {length} bytes"
  | .signature actual => s!"invalid size: signature must be 65 bytes, got {actual}"

/-- A value written in more bytes than it needs. -/
inductive MinimalityFault
  /-- A variable-length integer uses a wider form than its value needs. -/
  | varInt (value : Nat) (marker : UInt8)
  /-- A payload is pushed by a wider opcode than its length needs. -/
  | push (opcode : UInt8) (length : Nat)
  /-- A script number is not the shortest form of its value. -/
  | number (bytes : Bytes)
deriving DecidableEq

/-- The wording of a fault of minimality. -/
def MinimalityFault.message : MinimalityFault → String
  | .varInt value marker =>
    s!"non-minimal encoding: varint {value} encoded with marker 0x" ++ Hex.encode [marker]
  | .push opcode length =>
    "non-minimal encoding: " ++ Opcode.display opcode ++ s!" of {length} bytes"
  | .number bytes => "non-minimal encoding: script number " ++ Hex.encode bytes

/-- An opcode that does not exist. -/
inductive OpcodeFault
  /-- No opcode has the name. -/
  | unknownName (name : String)
  /-- No opcode pushes the number. -/
  | smallInt (n : Nat)
deriving DecidableEq

/-- The wording of a fault of opcode. -/
def OpcodeFault.message : OpcodeFault → String
  | .unknownName name => "invalid opcode: unknown opcode name " ++ Text.quote name
  | .smallInt n => s!"invalid opcode: small int {n} out of range"

/-- A chunk whose payload and opcode disagree. -/
inductive PayloadFault
  /-- The opcode needs a payload and has none. -/
  | missing (opcode : UInt8)
  /-- The opcode has a payload and takes none. -/
  | unexpected (opcode : UInt8)
  /-- A push opcode was named in a text script, where pushes are written as literals. -/
  | literalRequired (name : String)
deriving DecidableEq

/-- The wording of a fault of payload. -/
def PayloadFault.message : PayloadFault → String
  | .missing opcode => "invalid encoding: " ++ Opcode.display opcode ++ " requires a payload"
  | .unexpected opcode =>
    "invalid encoding: " ++ Opcode.display opcode ++ " cannot carry a payload"
  | .literalRequired name => "invalid encoding: " ++ name ++ " must be written as a 0x literal"

/-- The fixed-width words that a number may have to fit. -/
inductive WordSize
  /-- An unsigned word of 32 bits. -/
  | word32
  /-- An unsigned word of 64 bits. -/
  | word64
  /-- A count of items in memory, 64 bits wide. -/
  | count
deriving DecidableEq

/-- The least number that does not fit a word. -/
def WordSize.bound : WordSize → Nat
  | .word32 => UInt32.size
  | .word64 | .count => UInt64.size

/-- The name of a word. -/
def WordSize.name : WordSize → String
  | .word32 => "u32"
  | .word64 => "u64"
  | .count => "usize"

/-- A number that does not fit the word it has to be put in. -/
inductive PrecisionFault
  /-- A script number lies outside a word. -/
  | number (value : Int) (size : WordSize)
  /-- A target does not fit 256 bits. -/
  | target
deriving DecidableEq

/-- The wording of a fault of precision. -/
def PrecisionFault.message : PrecisionFault → String
  | .number value size => s!"insufficient precision: {value} does not fit " ++ size.name
  | .target => "insufficient precision: retargeted value exceeds 256 bits"

/-- Why bytes are no script number, or not one that fits a word. -/
inductive NumberFault
  /-- The bytes are not the shortest form of their value. -/
  | notMinimal (bytes : Bytes)
  /-- The value lies outside the word. -/
  | tooWide (value : Int) (size : WordSize)
deriving DecidableEq

/-- The wording of a fault of number. -/
def NumberFault.message : NumberFault → String
  | .notMinimal bytes => (MinimalityFault.number bytes).message
  | .tooWide value size => (PrecisionFault.number value size).message

end UtxoChain
