import UtxoChain.Machine.Step

/-!
# Running scripts

A script runs chunk by chunk. Conditionals are met in skipped branches too, so that they nest;
everything else in a skipped branch is passed over. Counted are the conditionals wherever they stand
and the other opcodes where they are executed, but no push of a payload and not the opcode that ends
the script. A run ends well only if every conditional is closed.

`execute` gives the result of a run and the state it ends in; `evaluate` also judges the item on top.
-/

namespace UtxoChain.Machine

/-- The opcodes that a script may count unless the parameters say otherwise. -/
def defaultMaxOps : Nat := 10000

/-- Whether a run goes on after a chunk. -/
inductive Flow
  /-- The next chunk follows. -/
  | next
  /-- The script ends here. -/
  | stop
deriving DecidableEq

/-- Opens, turns or closes a conditional. One that is opened in a skipped branch is not taken. -/
def stepConditional (op : Opcode) (executing : Bool) : Step Unit := do
  let branch (taken : Bool) : Step Unit :=
    modify fun state => { state with branches := taken :: state.branches }
  match op, executing with
  | .ifOp, true => do branch (ScriptNumber.isTrue (← pop))
  | .notIfOp, true => do branch (!ScriptNumber.isTrue (← pop))
  | .ifOp, false | .notIfOp, false => branch false
  | .elseOp, _ =>
    match (← get).branches with
    | [] => throw .unbalancedConditional
    | taken :: outer => modify fun state => { state with branches := (!taken) :: outer }
  | .endIfOp, _ =>
    match (← get).branches with
    | [] => throw .unbalancedConditional
    | _ :: outer => modify fun state => { state with branches := outer }
  | _, _ => pure ()

/-- Runs a chunk without payload. -/
def stepOpcode (env : Env) (byte : UInt8) (executing : Bool) : Step Flow :=
  match Opcode.ofByte? byte, executing with
  | none, true => throw (.unknownOpcode byte)
  | none, false => return .next
  | some op, _ =>
    if op.isConditional then do
      countOp env
      stepConditional op executing
      return .next
    else if executing then
      if op = .returnOp then return .stop
      else do
        countOp env
        step env op
        checkDepth
        return .next
    else return .next

/-- Runs a chunk. -/
def stepChunk (env : Env) (chunk : Chunk) : Step Flow := do
  let executing := (← get).executing
  match chunk.payload with
  | none => stepOpcode env chunk.opcode executing
  | some data =>
    if executing then do
      push data
      checkDepth
      return .next
    else return .next

/-- Runs chunks until one ends the script. -/
def runChunks (env : Env) : List Chunk → Step Unit
  | [] => pure ()
  | chunk :: rest => do
    match ← stepChunk env chunk with
    | .next => runChunks env rest
    | .stop => pure ()

/-- Every conditional is closed. -/
def checkBalance : Step Unit := do
  if (← get).branches.isEmpty then pure () else throw .unbalancedConditional

/-- Runs chunks and checks that they closed what they opened. -/
def runBalanced (env : Env) (chunks : List Chunk) : Step Unit := do
  runChunks env chunks
  checkBalance

/-- The result of running a script on a stack, and the state in which it ends. -/
def execute (script : Script) (stack : Stack) (context : Option Context) (maxOps : Nat) :
    Except ScriptFailure Unit × State :=
  match runBalanced ⟨script.encode, context, maxOps⟩ script.chunks (State.start stack) with
  | .ok () state => (.ok (), state)
  | .error failure state => (.error failure, state)

/-- The verdict on a script. -/
structure Outcome where
  /-- The item on top when the script stopped. -/
  returnValue : Option Bytes
  /-- Why the script did not succeed, if it did not. -/
  failure : Option ScriptFailure
deriving DecidableEq

/-- The script succeeded. -/
def Outcome.success (outcome : Outcome) : Bool :=
  outcome.failure.isNone

/-- Why a script that ran to its end does not succeed: it must leave a true item on top. -/
def judge (stack : Stack) : Option ScriptFailure :=
  match stack with
  | [] => some .emptyStack
  | top :: _ => if ScriptNumber.isTrue top then none else some .falseStackTop

/-- The verdict on a script that runs on a stack. -/
def evaluate (script : Script) (stack : Stack) (context : Option Context) (maxOps : Nat) :
    Outcome :=
  match execute script stack context maxOps with
  | (.ok (), state) => ⟨state.stack.head?, judge state.stack⟩
  | (.error failure, state) => ⟨state.stack.head?, some failure⟩

/-- The verdict on a script that runs without a transaction. -/
def evaluateStandalone (script : Script) : Outcome :=
  evaluate script [] none defaultMaxOps

end UtxoChain.Machine
