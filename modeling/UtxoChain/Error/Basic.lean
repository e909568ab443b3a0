import UtxoChain.Error.Rules

/-!
# Errors

Every way in which an operation of the library can fail. Faults of encoding mean that the input was
never a well-formed value; the others judge well-formed values.
-/

namespace UtxoChain

/-- Every way in which an operation can fail. -/
inductive Error
  /-- A read would go past the end of the input. -/
  | notEnoughData (needed remaining : Nat)
  /-- Bytes are left over after a complete value. -/
  | tooMuchData (trailing : Nat)
  /-- A length does not fit what it describes. -/
  | invalidSize (fault : SizeFault)
  /-- A value is written in more bytes than it needs. -/
  | nonMinimal (fault : MinimalityFault)
  /-- An opcode does not exist. -/
  | invalidOpcode (fault : OpcodeFault)
  /-- The payload and the opcode of a chunk disagree. -/
  | invalidEncoding (fault : PayloadFault)
  /-- A text is not hexadecimal. -/
  | invalidHex (fault : HexFault)
  /-- A number does not fit the word it has to be put in. -/
  | insufficientPrecision (fault : PrecisionFault)
  /-- A secret key is zero or not below the group order. -/
  | invalidKey
  /-- Parameters cannot be used. -/
  | config (fault : ParamsFault)
  /-- A payment cannot be put together or signed. -/
  | build (fault : BuildFault)
  /-- A header, a block or a transaction breaks a rule. -/
  | rejected (rejection : Rejection)
deriving DecidableEq

/-- The wording of an error. -/
def Error.message : Error → String
  | .notEnoughData needed remaining =>
    s!"not enough data: needed {needed} bytes, {remaining} remaining"
  | .tooMuchData trailing => s!"too much data: {trailing} trailing bytes"
  | .invalidSize fault => fault.message
  | .nonMinimal fault => fault.message
  | .invalidOpcode fault => fault.message
  | .invalidEncoding fault => fault.message
  | .invalidHex fault => "invalid hex: " ++ fault.message
  | .insufficientPrecision fault => fault.message
  | .invalidKey =>
    "invalid key or signature: invalid private key: malformed or out-of-range secret key"
  | .config fault => fault.message
  | .build fault => fault.message
  | .rejected rejection => rejection.message

/-- A number that is refused is not minimal or not precise enough. -/
def NumberFault.toError : NumberFault → Error
  | .notMinimal bytes => .nonMinimal (.number bytes)
  | .tooWide value size => .insufficientPrecision (.number value size)

/-- A successor that cannot be proposed fails by its parameters, its place or its target. -/
def RetargetFault.toError : RetargetFault → Error
  | .params fault => .config fault
  | .link fault => .rejected (.header (.link fault))
  | .targetTooLarge => .insufficientPrecision .target

/-- A missing input is a fault of the transaction, which stands alone. -/
def MissingInput.toError (missing : MissingInput) : Error :=
  .rejected (.tx 0 (.missingInput missing))

/-- A fault of number keeps its wording as an error. -/
theorem NumberFault.message_toError (fault : NumberFault) :
    fault.toError.message = fault.message := by
  cases fault <;> rfl

/-- A fault of retargeting keeps its wording as an error. -/
theorem RetargetFault.message_toError (fault : RetargetFault) :
    fault.toError.message = fault.message := by
  cases fault <;> rfl

/-- A missing input keeps its wording as an error. -/
theorem MissingInput.message_toError (missing : MissingInput) :
    missing.toError.message = missing.message := by
  rfl

/-- The bytes of a hexadecimal text. -/
def bytesOfHex (text : String) : Except Error Bytes :=
  (Hex.decode text).mapError .invalidHex

/-- A byte string as one of fixed width. -/
def FixedBytes.ofBytes {width : Nat} (bytes : Bytes) : Except Error (FixedBytes width) :=
  match ofBytes? bytes with
  | some fixed => .ok fixed
  | none => .error (.invalidSize (.fixedWidth width bytes.length))

/-- The byte string of fixed width that a hexadecimal text writes. -/
def FixedBytes.ofHex {width : Nat} (text : String) : Except Error (FixedBytes width) := do
  FixedBytes.ofBytes (← bytesOfHex text)

end UtxoChain
