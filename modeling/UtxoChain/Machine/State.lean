import UtxoChain.Tx.DigestCache

/-!
# The state of the script machine

The machine has a stack and an alternative stack of byte strings, both listed from the top, the
conditionals that are open, and a count of the opcodes it has met. A step changes the state and may
fail; the state at the failure is kept.

Places on a stack are counted from the top, from zero. The functions on stacks give nothing for a
place that is not there, and arithmetic on positions gives nothing for a result that is no position. A
step that has made sure of its places turns that into `positionFault`.
-/

namespace UtxoChain.Machine

/-- The most bits by which a number is shifted. -/
def maxShift : Nat := 4096

/-- The most bytes of an item. -/
def maxElementSize : Nat := 4096

/-- The most items on the two stacks together. -/
def maxStackDepth : Nat := 1000

/-- The most keys of one multiple signature check. -/
def maxMultiSigKeys : Nat := 20

/-- A stack of byte strings, top first. -/
abbrev Stack := List Bytes

namespace Stack

/-- The item at a depth. -/
def item? (stack : Stack) (depth : Nat) : Option Bytes :=
  stack[depth]?

/-- The item at a depth, and the stack without it. -/
def remove? (stack : Stack) (depth : Nat) : Option (Bytes × Stack) :=
  (stack.item? depth).map fun item => (item, stack.eraseIdx depth)

/-- The stack with an item put in at a depth. -/
def insert? (stack : Stack) (depth : Nat) (item : Bytes) : Option Stack :=
  if depth ≤ stack.length then some (stack.insertIdx depth item) else none

/-- The top `count` items, top first, and the stack below them. -/
def split? (stack : Stack) (count : Nat) : Option (Stack × Stack) :=
  if count ≤ stack.length then some (stack.take count, stack.drop count) else none

/-- The stack with the lowest `count` of its top `depth` items copied onto it. -/
def copy? (stack : Stack) (depth count : Nat) : Option Stack :=
  if count ≤ depth ∧ depth ≤ stack.length then
    some ((stack.take depth).drop (depth - count) ++ stack)
  else none

end Stack

/-- The bytes from `start` up to `stop`. -/
def slice? (bytes : Bytes) (start stop : Nat) : Option Bytes :=
  if start ≤ stop ∧ stop ≤ bytes.length then some ((bytes.take stop).drop start) else none

/-- The position that lies `count` further on, and nothing where it would need more than 64 bits. -/
def forward? (position count : Nat) : Option Nat :=
  if position + count < UInt64.size then some (position + count) else none

/-- The position that lies `count` further back, and nothing where it would lie before the start. -/
def back? (position count : Nat) : Option Nat :=
  if count ≤ position then some (position - count) else none

/-- The quotient toward zero, and nothing for a zero divisor. -/
def quotient? (a b : Int) : Option Int :=
  if b = 0 then none else some (a.tdiv b)

/-- The remainder that has the sign of the dividend, and nothing for a zero divisor. -/
def remainder? (a b : Int) : Option Int :=
  if b = 0 then none else some (a.tmod b)

/-- The transaction input for which a script runs. -/
structure Context where
  /-- The transaction, with those of its digests that are known. -/
  cache : DigestCache
  /-- The position of the input. -/
  inputIndex : Nat
  /-- The value of the output that the input spends. -/
  amount : UInt64
  /-- The scheme of the signatures. -/
  scheme : SignatureScheme

/-- What stays the same while a script runs. -/
structure Env where
  /-- The bytes of the script, to which its signatures commit. -/
  scriptCode : Bytes
  /-- The transaction input, if there is one. -/
  context : Option Context
  /-- The most opcodes that are counted. -/
  maxOps : Nat

/-- What changes while a script runs. -/
structure State where
  /-- The stack, top first. -/
  stack : Stack
  /-- The alternative stack, top first. -/
  alt : Stack
  /-- The open conditionals, innermost first: whether their present branch is taken. -/
  branches : List Bool
  /-- The number of opcodes counted. -/
  opCount : Nat
deriving DecidableEq

/-- The state before a script runs on a stack. -/
def State.start (stack : Stack) : State :=
  ⟨stack, [], [], 0⟩

/-- Every open conditional is in a branch that is taken. -/
def State.executing (state : State) : Bool :=
  state.branches.all id

/-- A step of the machine. -/
abbrev Step := EStateM ScriptFailure State

/-- The value at a place of which the step has made sure. -/
def located {α : Type} : Option α → Step α
  | some value => pure value
  | none => throw .positionFault

/-- The stack. -/
def getStack : Step Stack := do
  return (← get).stack

/-- Replaces the stack. -/
def setStack (stack : Stack) : Step Unit :=
  modify fun state => { state with stack }

/-- There are at least `count` items. -/
def require (count : Nat) : Step Unit := do
  if (← getStack).length < count then throw .stackUnderflow else pure ()

/-- Replaces the stack by what a function makes of it, once there are at least `count` items. -/
def rearrange (count : Nat) (change : Stack → Option Stack) : Step Unit := do
  require count
  setStack (← located (change (← getStack)))

/-- Takes the top item off. -/
def pop : Step Bytes := do
  match ← getStack with
  | [] => throw .stackUnderflow
  | top :: rest => do
    setStack rest
    return top

/-- The item at a depth. -/
def peek (depth : Nat) : Step Bytes := do
  require (depth + 1)
  located ((← getStack).item? depth)

/-- Takes the top `count` items off, top first. -/
def popMany (count : Nat) : Step Stack := do
  require count
  let (items, rest) ← located ((← getStack).split? count)
  setStack rest
  return items

/-- Puts an item on, whatever its size. -/
def place (item : Bytes) : Step Unit := do
  setStack (item :: (← getStack))

/-- Puts an item on that is not too large. -/
def push (item : Bytes) : Step Unit :=
  if maxElementSize < item.length then throw (.elementTooLarge item.length) else place item

/-- Puts a number on. -/
def pushNumber (number : Int) : Step Unit :=
  push (ScriptNumber.encode number)

/-- Puts a truth value on. -/
def pushBool (b : Bool) : Step Unit :=
  pushNumber (ScriptNumber.ofBool b)

/-- A number that was read, or the failure that it is none. -/
def readNumber {α : Type} : Except NumberFault α → Step α
  | .ok number => pure number
  | .error fault => throw (.invalidNumber fault)

/-- Takes a number off. -/
def popNumber : Step Int := do
  readNumber (ScriptNumber.decode (← pop))

/-- Takes a position, count or shift off. -/
def popIndex : Step Nat := do
  let number ← popNumber
  if number < 0 then throw .invalidRange else readNumber (ScriptNumber.toWord .count number)

/-- The condition of a verifying opcode holds. -/
def verify (op : Opcode) (condition : Bool) : Step Unit :=
  if condition then pure () else throw (.verifyFailed op)

/-- Counts one more opcode. -/
def countOp (env : Env) : Step Unit := do
  modify fun state => { state with opCount := state.opCount + 1 }
  if env.maxOps < (← get).opCount then throw (.opLimitExceeded env.maxOps) else pure ()

/-- The stacks together are not too deep. -/
def checkDepth : Step Unit := do
  let state ← get
  if maxStackDepth < state.stack.length + state.alt.length then
    throw (.stackOverflow maxStackDepth)
  else pure ()

end UtxoChain.Machine
