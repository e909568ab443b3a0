import UtxoChain.Error.Encoding

/-!
# Failures of scripts

The reasons for which a script does not succeed, and their wording.
-/

namespace UtxoChain

/-- A signature was asked for an input that the transaction does not have. -/
structure MissingInput where
  /-- The position asked for. -/
  index : Nat
  /-- The number of inputs. -/
  count : Nat
deriving DecidableEq

/-- What is wrong with the position, without naming the transaction. -/
def MissingInput.reason (missing : MissingInput) : String :=
  s!"input index {missing.index} out of range ({missing.count} inputs)"

/-- The wording for a transaction that stands alone. -/
def MissingInput.message (missing : MissingInput) : String :=
  "invalid transaction 0: " ++ missing.reason

/-- What a script wanted of the transaction and did not find. -/
inductive ContextFault
  /-- There is no transaction for the opcode to look at. -/
  | noTransaction (op : Opcode)
  /-- The transaction has no input at the position, so there is nothing to sign. -/
  | noSighash (missing : MissingInput)
  /-- The transaction has no input at the position, so there is no relative lock. -/
  | noRelativeLock
deriving DecidableEq

/-- The wording of a missing context. -/
def ContextFault.message : ContextFault → String
  | .noTransaction op => op.name ++ " needs a transaction"
  | .noSighash missing => missing.message
  | .noRelativeLock => "input index out of range"

/-- The reasons for which a script does not succeed. -/
inductive ScriptFailure
  /-- The stack holds fewer items than the opcode takes. -/
  | stackUnderflow
  /-- The alternative stack is empty. -/
  | altStackUnderflow
  /-- A verifying opcode found its condition false. -/
  | verifyFailed (op : Opcode)
  /-- A conditional is closed without being open, or open at the end. -/
  | unbalancedConditional
  /-- The byte is no opcode. -/
  | unknownOpcode (byte : UInt8)
  /-- A counted push stands without its payload. -/
  | missingPayload (op : Opcode)
  /-- An operand is no number, or does not fit. -/
  | invalidNumber (fault : NumberFault)
  /-- A position, count or shift lies outside its range. -/
  | invalidRange
  /-- The operands of a bitwise opcode differ in length. -/
  | operandSizeMismatch
  /-- The divisor is zero. -/
  | divisionByZero
  /-- More opcodes were counted than the limit allows. -/
  | opLimitExceeded (limit : Nat)
  /-- An item has more bytes than an item may have. -/
  | elementTooLarge (size : Nat)
  /-- The two stacks together hold more items than they may. -/
  | stackOverflow (limit : Nat)
  /-- No item is left to judge the run by. -/
  | emptyStack
  /-- The item that judges the run is false. -/
  | falseStackTop
  /-- The input script does more than push. -/
  | notPushOnly
  /-- A signature has the wrong number of bytes. -/
  | invalidSignature (size : Nat)
  /-- A public key has the wrong number of bytes. -/
  | invalidPubKey
  /-- The transaction's lock is lower than the script demands. -/
  | lockNotSatisfied (required actual : Nat)
  /-- The script needs a transaction, or an input of it, that is not there. -/
  | noTxContext (fault : ContextFault)
  /-- A step addressed a place outside the stack or the item, or reckoned a position that is none, which
  its guard should have caught. -/
  | positionFault
deriving DecidableEq

/-- The wording of a script failure. -/
def ScriptFailure.message : ScriptFailure → String
  | .stackUnderflow => "stack underflow"
  | .altStackUnderflow => "alt stack underflow"
  | .verifyFailed op => op.name ++ " failed"
  | .unbalancedConditional => "unbalanced conditional"
  | .unknownOpcode byte => "unknown opcode " ++ Opcode.display byte
  | .missingPayload op => "unknown opcode " ++ op.name ++ " without payload"
  | .invalidNumber fault => "invalid number: " ++ fault.message
  | .invalidRange => "range out of bounds"
  | .operandSizeMismatch => "operand sizes differ"
  | .divisionByZero => "division by zero"
  | .opLimitExceeded limit => s!"operation limit of {limit} exceeded"
  | .elementTooLarge size => s!"stack element of {size} bytes exceeds the size limit"
  | .stackOverflow limit => s!"stack depth limit of {limit} exceeded"
  | .emptyStack => "stack is empty at end of script"
  | .falseStackTop => "top of stack is false"
  | .notPushOnly => "input script is not push-only"
  | .invalidSignature size =>
    "invalid signature encoding: " ++ (SizeFault.signature size).message
  | .invalidPubKey => "invalid public key encoding"
  | .lockNotSatisfied required actual =>
    s!"lock not satisfied: requires {required}, has {actual}"
  | .noTxContext fault => "no transaction context: " ++ fault.message
  | .positionFault => "position out of range"

end UtxoChain
