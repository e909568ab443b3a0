import UtxoChain.Machine.Signatures

/-!
# The opcodes of the script machine

What each opcode does to the state. Operands are taken off before they are judged, so a failure
leaves the stack without those that were already taken.
-/

namespace UtxoChain.Machine

/-- Replaces a number by what a function makes of it. -/
def onNumber (f : Int → Int) : Step Unit := do
  pushNumber (f (← popNumber))

/-- Takes two numbers off, the second operand on top. -/
def popNumbers : Step (Int × Int) := do
  let b ← popNumber
  let a ← popNumber
  return (a, b)

/-- Replaces two numbers by what a function makes of them. -/
def onNumbers (f : Int → Int → Int) : Step Unit := do
  let (a, b) ← popNumbers
  pushNumber (f a b)

/-- Replaces two numbers by the truth of a relation between them. -/
def onNumbersBool (f : Int → Int → Bool) : Step Unit :=
  onNumbers fun a b => ScriptNumber.ofBool (f a b)

/-- Replaces two numbers by a part of their quotient. -/
def onDivision (f : Int → Int → Option Int) : Step Unit := do
  let (a, b) ← popNumbers
  if b = 0 then throw .divisionByZero else pushNumber (← located (f a b))

/-- Replaces a number under a shift by what a function makes of them. -/
def onShift (f : Int → Nat → Int) : Step Unit := do
  let shift ← popIndex
  if maxShift < shift then throw .invalidRange
  else pushNumber (f (← popNumber) shift)

/-- Replaces two items of one length by what a function makes of their bytes. -/
def onBytes (f : UInt8 → UInt8 → UInt8) : Step Unit := do
  let b ← pop
  let a ← pop
  if a.length = b.length then place (List.zipWith f a b) else throw .operandSizeMismatch

/-- Joins two items, the second on top. -/
def concatenate : Step Unit := do
  let b ← pop
  let a ← pop
  if maxElementSize < a.length + b.length then throw (.elementTooLarge (a.length + b.length))
  else place (a ++ b)

/-- Puts on a part of an item, or fails if the range is not within it. -/
def placeSlice (part : Option Bytes) : Step Unit :=
  match part with
  | some bytes => place bytes
  | none => throw .invalidRange

/-- Replaces an item, a start and a length by the part of the item. An end past 64 bits is out of
range like any other that is not within the item. -/
def substring : Step Unit := do
  let size ← popIndex
  let start ← popIndex
  let bytes ← pop
  if UInt64.size ≤ start + size then throw .invalidRange
  else do
    let stop ← located (forward? start size)
    placeSlice (slice? bytes start stop)

/-- Replaces an item and a count by the first bytes of the item. -/
def leftPart : Step Unit := do
  let count ← popIndex
  let bytes ← pop
  placeSlice (slice? bytes 0 count)

/-- Replaces an item and a count by the last bytes of the item. -/
def rightPart : Step Unit := do
  let count ← popIndex
  let bytes ← pop
  if bytes.length < count then throw .invalidRange
  else do
    let start ← located (back? bytes.length count)
    place (← located (slice? bytes start bytes.length))

/-- Takes a depth off, which must be below that of the stack that remains. -/
def popDepth : Step Nat := do
  let depth ← popIndex
  require (depth + 1)
  return depth

/-- Runs an opcode that is not a conditional. -/
def step (env : Env) (op : Opcode) : Step Unit :=
  match op with
  -- Constants and pushes
  | .op0 => pushNumber 0
  | .negate1 => pushNumber (-1)
  | .op1 | .op2 | .op3 | .op4 | .op5 | .op6 | .op7 | .op8 | .op9 | .op10 | .op11 | .op12 | .op13
  | .op14 | .op15 | .op16 => pushNumber (op.smallInt?.getD 0)
  | .pushData1 | .pushData2 | .pushData4 => throw (.missingPayload op)
  -- Control; the conditionals and the early end are handled where chunks are
  | .verify => do verify op (ScriptNumber.isTrue (← pop))
  | .ifOp | .notIfOp | .elseOp | .endIfOp | .returnOp => pure ()
  | .toAltStack => do
    let item ← pop
    modify fun state => { state with alt := item :: state.alt }
  | .fromAltStack => do
    match (← get).alt with
    | [] => throw .altStackUnderflow
    | item :: alt => do
      modify fun state => { state with alt }
      place item
  -- Stack
  | .drop2 => rearrange 2 fun stack => (stack.split? 2).map (·.2)
  | .dup2 => rearrange 2 fun stack => stack.copy? 2 2
  | .dup3 => rearrange 3 fun stack => stack.copy? 3 3
  | .over2 => rearrange 4 fun stack => stack.copy? 4 2
  | .rot2 => rearrange 6 fun stack => do
    let (first, stack) ← stack.remove? 5
    let (second, stack) ← stack.remove? 4
    return second :: first :: stack
  | .swap2 => rearrange 4 fun stack => do
    let (upper, stack) ← stack.split? 2
    let (lower, stack) ← stack.split? 2
    return lower ++ upper ++ stack
  | .ifDup => do
    let top ← peek 0
    if ScriptNumber.isTrue top then place top else pure ()
  | .depth => do pushNumber (← getStack).length
  | .drop => do
    let _ ← pop
    pure ()
  | .dup => rearrange 1 fun stack => stack.copy? 1 1
  | .nip => rearrange 2 fun stack => (stack.remove? 1).map (·.2)
  | .over => rearrange 2 fun stack => stack.copy? 2 1
  | .pick => do
    let depth ← popDepth
    place (← located ((← getStack).item? depth))
  | .roll => do
    let depth ← popDepth
    let (item, stack) ← located ((← getStack).remove? depth)
    setStack (item :: stack)
  | .rot => rearrange 3 fun stack => do
    let (item, stack) ← stack.remove? 2
    return item :: stack
  | .swap => rearrange 2 fun stack => do
    let (item, stack) ← stack.remove? 1
    return item :: stack
  | .tuck => rearrange 2 fun stack => do
    let top ← stack.item? 0
    stack.insert? 2 top
  -- Splice
  | .cat => concatenate
  | .substr => substring
  | .left => leftPart
  | .right => rightPart
  | .size => do pushNumber (← peek 0).length
  -- Bitwise and equality
  | .invert => do place ((← pop).map (~~~ ·))
  | .bitAnd => onBytes (· &&& ·)
  | .bitOr => onBytes (· ||| ·)
  | .bitXor => onBytes (· ^^^ ·)
  | .equal => do
    let b ← pop
    let a ← pop
    pushBool (a == b)
  | .equalVerify => do
    let b ← pop
    let a ← pop
    verify op (a == b)
  -- Arithmetic
  | .add1 => onNumber (· + 1)
  | .sub1 => onNumber (· - 1)
  | .mul2 => onNumber (· * 2)
  | .div2 => onNumber (·.tdiv 2)
  | .negate => onNumber (- ·)
  | .abs => onNumber fun a => a.natAbs
  | .notOp => onNumber fun a => ScriptNumber.ofBool (a == 0)
  | .notEqual0 => onNumber fun a => ScriptNumber.ofBool (a != 0)
  | .add => onNumbers (· + ·)
  | .sub => onNumbers (· - ·)
  | .mul => onNumbers (· * ·)
  | .div => onDivision quotient?
  | .mod => onDivision remainder?
  | .shiftLeft => onShift fun a shift => a * ((1 <<< shift : Nat) : Int)
  | .shiftRight => onShift fun a shift => a.fdiv ((1 <<< shift : Nat) : Int)
  | .boolAnd => onNumbersBool fun a b => a != 0 && b != 0
  | .boolOr => onNumbersBool fun a b => a != 0 || b != 0
  | .numEqual => onNumbersBool (· == ·)
  | .numEqualVerify => do
    let (a, b) ← popNumbers
    verify op (a == b)
  | .numNotEqual => onNumbersBool (· != ·)
  | .lessThan => onNumbersBool (· < ·)
  | .greaterThan => onNumbersBool (· > ·)
  | .lessThanOrEqual => onNumbersBool (· ≤ ·)
  | .greaterThanOrEqual => onNumbersBool (· ≥ ·)
  | .min => onNumbers fun a b => if a ≤ b then a else b
  | .max => onNumbers fun a b => if a ≤ b then b else a
  | .within => do
    let upper ← popNumber
    let lower ← popNumber
    let a ← popNumber
    pushBool (lower ≤ a && a < upper)
  -- Digests
  | .blake3 => do place (singleHash (← pop)).toBytes
  | .doubleBlake3 => do place (doubleHash (← pop)).toBytes
  -- Signatures and locks
  | .checkSig => do pushBool (← popSignatureCheck env)
  | .checkSigVerify => do verify op (← popSignatureCheck env)
  | .checkMultiSig => do pushBool (← popMultiSignatureCheck env)
  | .checkMultiSigVerify => do verify op (← popMultiSignatureCheck env)
  | .checkLockAbsVerify => checkLockAbs env
  | .checkLockRelVerify => checkLockRel env

end UtxoChain.Machine
