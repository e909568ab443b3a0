import UtxoChain.Proofs.Machine.Step

/-!
# What opcodes inherit from their parts

Opcodes are put together of a few steps: they read and replace the two stacks, give a value, or fail
for a reason of their own. So a property that these steps have, and that two steps in a row have
wherever each has it, is one of every opcode (`Inherited.step`). How many opcodes were met is found
out where they are counted, so that there are too many of them is no reason of an opcode.
-/

namespace UtxoChain

/-- The reasons for which a check of a signature or a lock can fail before it has an outcome. -/
def ScriptFailure.ofCheck : ScriptFailure → Bool
  | .noTxContext _ | .invalidSignature _ | .invalidPubKey => true
  | _ => false

/-- Too many opcodes were met. -/
def ScriptFailure.isOpLimit : ScriptFailure → Bool
  | .opLimitExceeded _ => true
  | _ => false

/-- A check does not look at how many opcodes were met. -/
theorem ScriptFailure.isOpLimit_eq_false_of_ofCheck {failure : ScriptFailure}
    (h : failure.ofCheck = true) : failure.isOpLimit = false := by
  cases failure <;> first | rfl | exact absurd h Bool.false_ne_true

namespace Machine

/-! ## Why checks fail -/

section

variable {env : Env} {failure : ScriptFailure}

/-- A transaction that is not there is told as such. -/
theorem ofCheck_of_contextFor {op : Opcode} (h : env.contextFor op = .error failure) :
    failure.ofCheck = true := by
  unfold Env.contextFor at h
  cases hContext : env.context with
  | none =>
    rw [hContext] at h
    rw [← Except.error.inj h]
    rfl
  | some context =>
    rw [hContext] at h
    exact absurd h nofun

/-- A signature check fails for want of a transaction or an input, or for the form of its operands. -/
theorem ofCheck_of_checkSignature {signature key : Bytes}
    (h : checkSignature env signature key = .error failure) : failure.ofCheck = true := by
  unfold checkSignature at h
  rcases bind_eq_error_iff.1 h with hContext | ⟨context, -, hChecked⟩
  · exact ofCheck_of_contextFor hContext
  · split at hChecked
    · rw [← Except.error.inj hChecked]
      rfl
    · rw [← Except.error.inj hChecked]
      rfl
    · dsimp only at hChecked
      split at hChecked
      · rw [← Except.error.inj hChecked]
        rfl
      · exact absurd hChecked nofun

/-- Matching signatures with keys fails only as the check of one of them does. -/
theorem exists_of_matchSignatures {check : Bytes → Bytes → Except ScriptFailure Bool}
    {signatures keys : List Bytes} (h : matchSignatures check signatures keys = .error failure) :
    ∃ signature key, check signature key = .error failure := by
  induction keys generalizing signatures with
  | nil => cases signatures <;> exact absurd h nofun
  | cons key keys ih =>
    cases signatures with
    | nil => exact absurd h nofun
    | cons signature signatures =>
      rw [matchSignatures] at h
      rcases bind_eq_error_iff.1 h with hCheck | ⟨valid, -, hRest⟩
      · exact ⟨signature, key, hCheck⟩
      · cases valid with
        | true => exact ih hRest
        | false => exact ih hRest

/-- Matching signatures with keys fails for the reasons of a signature check. -/
theorem ofCheck_of_matchSignatures {signatures keys : List Bytes}
    (h : matchSignatures (checkSignature env) signatures keys = .error failure) :
    failure.ofCheck = true := by
  obtain ⟨signature, key, hCheck⟩ := exists_of_matchSignatures h
  exact ofCheck_of_checkSignature hCheck

end

/-! ## Steps that are put together -/

/-- A property of steps that the steps on the two stacks have, and that is inherited from parts. -/
structure Inherited (P : ∀ {α : Type}, Step α → Prop) : Prop where
  /-- Giving a value has it. -/
  pure : ∀ {α : Type} (value : α), P (pure value)
  /-- Failing has it, but for the limit on opcodes. -/
  throw : ∀ {α : Type} {failure : ScriptFailure}, failure.isOpLimit = false →
    P (throw failure : Step α)
  /-- Two steps in a row have it. -/
  bind : ∀ {α β : Type} {first : Step α} {next : α → Step β}, P first → (∀ value, P (next value)) →
    P (first >>= next)
  /-- Reading the stack has it. -/
  getStack : P Machine.getStack
  /-- Replacing the stack has it. -/
  setStack : ∀ stack, P (Machine.setStack stack)
  /-- Putting an item on the alternative stack has it. -/
  placeAlt : ∀ item, P (modify fun state => { state with alt := item :: state.alt } : Step Unit)
  /-- Moving an item back from the alternative stack has it. -/
  fromAltStack : ∀ env, P (Machine.step env .fromAltStack)

section

variable {P : ∀ {α : Type}, Step α → Prop} {α : Type}

/-- Whichever of two steps is made has a property that both have. -/
theorem Inherited.ite (_ : Inherited P) {condition : Prop} [Decidable condition]
    {first second : Step α} (hFirst : P first) (hSecond : P second) :
    P (if condition then first else second) := by
  split_ifs
  · exact hFirst
  · exact hSecond

variable (h : Inherited P)

include h

/-! ## The stack -/

/-- Asking for items inherits. -/
theorem Inherited.require (count : Nat) : P (Machine.require count) :=
  h.bind h.getStack fun _ => h.ite (h.throw rfl) (h.pure ())

/-- Looking a place up inherits. -/
theorem Inherited.located (value? : Option α) : P (Machine.located value?) := by
  cases value? with
  | none => exact h.throw rfl
  | some value => exact h.pure value

/-- Rearranging the stack inherits. -/
theorem Inherited.rearrange (count : Nat) (change : Stack → Option Stack) :
    P (Machine.rearrange count change) :=
  h.bind (h.require count) fun _ => h.bind h.getStack fun _ => h.bind (h.located _) fun _ =>
    h.setStack _

/-- Taking an item off inherits. -/
theorem Inherited.pop : P Machine.pop := by
  refine h.bind h.getStack fun stack => ?_
  cases stack with
  | nil => exact h.throw rfl
  | cons top rest => exact h.bind (h.setStack rest) fun _ => h.pure top

/-- Looking at an item inherits. -/
theorem Inherited.peek (depth : Nat) : P (Machine.peek depth) :=
  h.bind (h.require _) fun _ => h.bind h.getStack fun _ => h.located _

/-- Taking several items off inherits. -/
theorem Inherited.popMany (count : Nat) : P (Machine.popMany count) :=
  h.bind (h.require count) fun _ => h.bind h.getStack fun _ => h.bind (h.located _) fun _ =>
    h.bind (h.setStack _) fun _ => h.pure _

/-- Putting an item on inherits. -/
theorem Inherited.place (item : Bytes) : P (Machine.place item) :=
  h.bind h.getStack fun _ => h.setStack _

/-- Pushing an item inherits. -/
theorem Inherited.push (item : Bytes) : P (Machine.push item) :=
  h.ite (h.throw rfl) (h.place item)

/-- Pushing a number inherits. -/
theorem Inherited.pushNumber (number : Int) : P (Machine.pushNumber number) :=
  h.push _

/-- Reading a number inherits. -/
theorem Inherited.readNumber (read : Except NumberFault α) : P (Machine.readNumber read) := by
  cases read with
  | ok number => exact h.pure number
  | error fault => exact h.throw rfl

/-- Taking a number off inherits. -/
theorem Inherited.popNumber : P Machine.popNumber :=
  h.bind h.pop fun _ => h.readNumber _

/-- Taking two numbers off inherits. -/
theorem Inherited.popNumbers : P Machine.popNumbers :=
  h.bind h.popNumber fun _ => h.bind h.popNumber fun _ => h.pure _

/-- Taking a position, count or shift off inherits. -/
theorem Inherited.popIndex : P Machine.popIndex :=
  h.bind h.popNumber fun _ => h.ite (h.throw rfl) (h.readNumber _)

/-- Taking a depth off inherits. -/
theorem Inherited.popDepth : P Machine.popDepth :=
  h.bind h.popIndex fun _ => h.bind (h.require _) fun _ => h.pure _

/-- Verifying a condition inherits. -/
theorem Inherited.verify (op : Opcode) (condition : Bool) : P (Machine.verify op condition) :=
  h.ite (h.pure ()) (h.throw rfl)

/-! ## Families of opcodes -/

/-- Replacing a number inherits. -/
theorem Inherited.onNumber (f : Int → Int) : P (Machine.onNumber f) :=
  h.bind h.popNumber fun _ => h.pushNumber _

/-- Replacing two numbers inherits. -/
theorem Inherited.onNumbers (f : Int → Int → Int) : P (Machine.onNumbers f) :=
  h.bind h.popNumbers fun _ => h.pushNumber _

/-- Replacing two numbers by a truth value inherits. -/
theorem Inherited.onNumbersBool (f : Int → Int → Bool) : P (Machine.onNumbersBool f) :=
  h.onNumbers _

/-- Dividing inherits. -/
theorem Inherited.onDivision (f : Int → Int → Option Int) : P (Machine.onDivision f) :=
  h.bind h.popNumbers fun _ => h.ite (h.throw rfl)
    (h.bind (h.located _) fun _ => h.pushNumber _)

/-- Shifting inherits. -/
theorem Inherited.onShift (f : Int → Nat → Int) : P (Machine.onShift f) :=
  h.bind h.popIndex fun _ => h.ite (h.throw rfl)
    (h.bind h.popNumber fun _ => h.pushNumber _)

/-- Combining two items byte by byte inherits. -/
theorem Inherited.onBytes (f : UInt8 → UInt8 → UInt8) : P (Machine.onBytes f) :=
  h.bind h.pop fun _ => h.bind h.pop fun _ => h.ite (h.place _) (h.throw rfl)

/-- Joining two items inherits. -/
theorem Inherited.concatenate : P Machine.concatenate :=
  h.bind h.pop fun _ => h.bind h.pop fun _ => h.ite (h.throw rfl) (h.place _)

/-- Putting a part of an item on inherits. -/
theorem Inherited.placeSlice (part : Option Bytes) : P (Machine.placeSlice part) := by
  cases part with
  | none => exact h.throw rfl
  | some bytes => exact h.place bytes

/-- Taking a part out of an item inherits. -/
theorem Inherited.substring : P Machine.substring :=
  h.bind h.popIndex fun _ => h.bind h.popIndex fun _ => h.bind h.pop fun _ =>
    h.ite (h.throw rfl) (h.bind (h.located _) fun _ => h.placeSlice _)

/-- Taking the front of an item inherits. -/
theorem Inherited.leftPart : P Machine.leftPart :=
  h.bind h.popIndex fun _ => h.bind h.pop fun _ => h.placeSlice _

/-- Taking the back of an item inherits. -/
theorem Inherited.rightPart : P Machine.rightPart :=
  h.bind h.popIndex fun _ => h.bind h.pop fun _ => h.ite (h.throw rfl)
    (h.bind (h.located _) fun _ => h.bind (h.located _) fun _ => h.place _)

/-! ## Signatures and locks -/

/-- A check that does not change the state inherits, if it fails for its own reasons. -/
theorem Inherited.decided {outcome : Except ScriptFailure α}
    (hFailure : ∀ failure, outcome = .error failure → failure.ofCheck = true) :
    P (Machine.decided outcome) := by
  cases outcome with
  | ok value => exact h.pure value
  | error failure =>
    exact h.throw (ScriptFailure.isOpLimit_eq_false_of_ofCheck (hFailure failure rfl))

variable (env : Env)

/-- Checking a signature inherits. -/
theorem Inherited.popSignatureCheck : P (Machine.popSignatureCheck env) :=
  h.bind h.pop fun _ => h.bind h.pop fun _ => h.decided fun _ => ofCheck_of_checkSignature

/-- Checking several signatures inherits. -/
theorem Inherited.popMultiSignatureCheck : P (Machine.popMultiSignatureCheck env) :=
  h.bind h.popIndex fun _ => h.ite (h.throw rfl)
    (h.bind (h.popMany _) fun _ => h.bind h.popIndex fun _ => h.ite (h.throw rfl)
      (h.bind (h.popMany _) fun _ => h.decided fun _ => ofCheck_of_matchSignatures))

/-- Looking at the lock that is demanded inherits. -/
theorem Inherited.peekLock : P Machine.peekLock :=
  h.bind (h.peek 0) fun _ => h.readNumber _

/-- Comparing locks inherits. -/
theorem Inherited.checkLock (required actual : Nat) : P (Machine.checkLock required actual) :=
  h.ite (h.throw rfl) (h.pure ())

/-- Checking the absolute lock inherits. -/
theorem Inherited.checkLockAbs : P (Machine.checkLockAbs env) :=
  h.bind (h.decided fun _ => ofCheck_of_contextFor) fun _ => h.bind h.peekLock fun _ =>
    h.checkLock _ _

/-- Checking the relative lock inherits. -/
theorem Inherited.checkLockRel : P (Machine.checkLockRel env) := by
  refine h.bind (h.decided fun _ => ofCheck_of_contextFor) fun context =>
    h.bind h.peekLock fun required => ?_
  cases context.cache.tx.inputs[context.inputIndex]? with
  | none => exact h.throw rfl
  | some input => exact h.checkLock _ _

/-! ## All opcodes -/

/-- Every opcode has what is inherited from its parts. -/
theorem Inherited.step (op : Opcode) : P (Machine.step env op) := by
  cases op with
  -- Constants and pushes
  | op0 | negate1 | op1 | op2 | op3 | op4 | op5 | op6 | op7 | op8 | op9 | op10 | op11 | op12
  | op13 | op14 | op15 | op16 => exact h.pushNumber _
  | pushData1 | pushData2 | pushData4 => exact h.throw rfl
  -- Control
  | verify => exact h.bind h.pop fun _ => h.verify _ _
  | ifOp | notIfOp | elseOp | endIfOp | returnOp => exact h.pure ()
  | toAltStack => exact h.bind h.pop h.placeAlt
  | fromAltStack => exact h.fromAltStack env
  -- Stack
  | drop2 | dup | dup2 | dup3 | nip | «over» | over2 | rot | rot2 | swap | swap2 | tuck =>
    exact h.rearrange _ _
  | ifDup => exact h.bind (h.peek 0) fun _ => h.ite (h.place _) (h.pure ())
  | depth => exact h.bind h.getStack fun _ => h.pushNumber _
  | drop => exact h.bind h.pop fun _ => h.pure ()
  | pick =>
    exact h.bind h.popDepth fun _ => h.bind h.getStack fun _ => h.bind (h.located _) fun _ =>
      h.place _
  | roll =>
    exact h.bind h.popDepth fun _ => h.bind h.getStack fun _ => h.bind (h.located _) fun _ =>
      h.setStack _
  -- Splice
  | cat => exact h.concatenate
  | substr => exact h.substring
  | left => exact h.leftPart
  | right => exact h.rightPart
  | size => exact h.bind (h.peek 0) fun _ => h.pushNumber _
  -- Bitwise and equality
  | invert => exact h.bind h.pop fun _ => h.place _
  | bitAnd | bitOr | bitXor => exact h.onBytes _
  | equal => exact h.bind h.pop fun _ => h.bind h.pop fun _ => h.pushNumber _
  | equalVerify => exact h.bind h.pop fun _ => h.bind h.pop fun _ => h.verify _ _
  -- Arithmetic
  | add1 | sub1 | mul2 | div2 | negate | abs | notOp | notEqual0 => exact h.onNumber _
  | add | sub | mul => exact h.onNumbers _
  | boolAnd | boolOr | numEqual | numNotEqual | lessThan | greaterThan | lessThanOrEqual
  | greaterThanOrEqual => exact h.onNumbersBool _
  | min | max =>
    rw [Machine.step]
    exact h.onNumbers _
  | div | mod => exact h.onDivision _
  | shiftLeft | shiftRight => exact h.onShift _
  | numEqualVerify => exact h.bind h.popNumbers fun _ => h.verify _ _
  | within =>
    exact h.bind h.popNumber fun _ => h.bind h.popNumber fun _ => h.bind h.popNumber fun _ =>
      h.pushNumber _
  -- Digests
  | blake3 | doubleBlake3 => exact h.bind h.pop fun _ => h.place _
  -- Signatures and locks
  | checkSig => exact h.bind (h.popSignatureCheck env) fun _ => h.pushNumber _
  | checkSigVerify => exact h.bind (h.popSignatureCheck env) fun _ => h.verify _ _
  | checkMultiSig => exact h.bind (h.popMultiSignatureCheck env) fun _ => h.pushNumber _
  | checkMultiSigVerify => exact h.bind (h.popMultiSignatureCheck env) fun _ => h.verify _ _
  | checkLockAbsVerify => exact h.checkLockAbs env
  | checkLockRelVerify => exact h.checkLockRel env

end

end Machine

end UtxoChain
