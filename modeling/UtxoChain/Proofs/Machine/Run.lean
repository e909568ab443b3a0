import UtxoChain.Machine.Run
import UtxoChain.Proofs.Machine.Step

/-!
# What a run does

A run that succeeds, taken apart into its chunks. A chunk that is executed pushes its payload, or
counts and performs its opcode; both leave the stacks within their depth.
-/

namespace UtxoChain.Machine

open Stateful

variable {env : Env} {state after : State} {chunk : Chunk} {rest : List Chunk}

/-- An opcode that is executed, and neither steers nor ends the script, is counted and performed. -/
theorem stepOpcode_ok_iff {byte : UInt8} {op : Opcode} (hOp : Opcode.ofByte? byte = some op)
    (hPlain : op.isConditional = false) (hReturn : op ≠ .returnOp) {flow : Flow} :
    stepOpcode env byte true state = .ok flow after ↔
      flow = .next ∧ state.opCount < env.maxOps ∧
        step env op { state with opCount := state.opCount + 1 } = .ok () after ∧
        after.stack.length + after.alt.length ≤ maxStackDepth := by
  simp only [stepOpcode, hOp, hPlain, hReturn, Bool.false_eq_true, if_false, if_true, bind_ok_iff,
    countOp_ok_iff, checkDepth_ok_iff, pure_ok_iff]
  constructor
  · rintro ⟨_, _, ⟨hCount, rfl⟩, _, _, hStep, _, _, ⟨hDepth, rfl⟩, rfl, rfl⟩
    exact ⟨rfl, hCount, hStep, hDepth⟩
  · rintro ⟨rfl, hCount, hStep, hDepth⟩
    exact ⟨(), _, ⟨hCount, rfl⟩, (), _, hStep, (), _, ⟨hDepth, rfl⟩, rfl, rfl⟩

/-- A chunk without payload does what its opcode does. -/
theorem stepChunk_eq_stepOpcode (hPayload : chunk.payload = none) :
    stepChunk env chunk state = stepOpcode env chunk.opcode state.executing state := by
  obtain ⟨opcode, payload⟩ := chunk
  obtain rfl : payload = none := hPayload
  rfl

/-- The chunk of an opcode that is executed, and neither steers nor ends the script, leads on if the
opcode may be counted, succeeds and leaves the stacks within their depth. -/
theorem stepChunk_ofOpcode_ok_iff {op : Opcode} (hPlain : op.isConditional = false)
    (hReturn : op ≠ .returnOp) (hExecuting : state.executing = true) {flow : Flow} :
    stepChunk env (.ofOpcode op) state = .ok flow after ↔
      flow = .next ∧ state.opCount < env.maxOps ∧
        step env op { state with opCount := state.opCount + 1 } = .ok () after ∧
        after.stack.length + after.alt.length ≤ maxStackDepth := by
  rw [stepChunk_eq_stepOpcode rfl, hExecuting]
  exact stepOpcode_ok_iff (Opcode.ofByte?_toByte op) hPlain hReturn

/-- An opcode that is executed, and neither steers nor ends the script, is counted and performed, and
the stacks are measured. -/
theorem stepChunk_ofOpcode_eq {op : Opcode} (hPlain : op.isConditional = false)
    (hReturn : op ≠ .returnOp) (hExecuting : state.executing = true)
    (hCount : state.opCount < env.maxOps) :
    stepChunk env (.ofOpcode op) state =
      (do
        step env op
        checkDepth
        return Flow.next) { state with opCount := state.opCount + 1 } := by
  have hCounted : countOp env state = .ok () { state with opCount := state.opCount + 1 } :=
    countOp_ok_iff.2 ⟨hCount, rfl⟩
  rw [stepChunk_eq_stepOpcode rfl, hExecuting]
  simp only [stepOpcode, Chunk.ofOpcode, Opcode.ofByte?_toByte, hPlain, hReturn, Bool.false_eq_true,
    if_false, if_true]
  exact bind_of_ok hCounted

/-- A payload that is executed is pushed, if it is not too large and there is room for it. -/
theorem stepChunk_push_ok_iff {data : Bytes} (hPayload : chunk.payload = some data)
    (hExecuting : state.executing = true) {flow : Flow} :
    stepChunk env chunk state = .ok flow after ↔
      flow = .next ∧ data.length ≤ maxElementSize ∧
        state.stack.length + 1 + state.alt.length ≤ maxStackDepth ∧
        after = { state with stack := data :: state.stack } := by
  unfold stepChunk
  rw [hPayload]
  simp only [bind_ok_iff, get_ok_iff]
  constructor
  · rintro ⟨_, _, ⟨rfl, rfl⟩, h⟩
    rw [hExecuting, if_pos rfl] at h
    simp only [bind_ok_iff, push_ok_iff, checkDepth_ok_iff, pure_ok_iff] at h
    obtain ⟨-, _, ⟨hLength, rfl⟩, -, _, ⟨hDepth, rfl⟩, rfl, rfl⟩ := h
    exact ⟨rfl, hLength, hDepth, rfl⟩
  · rintro ⟨rfl, hLength, hDepth, rfl⟩
    refine ⟨_, _, ⟨rfl, rfl⟩, ?_⟩
    rw [hExecuting, if_pos rfl]
    simp only [bind_ok_iff, push_ok_iff, checkDepth_ok_iff, pure_ok_iff]
    exact ⟨(), _, ⟨hLength, rfl⟩, (), _, ⟨hDepth, rfl⟩, trivial, rfl⟩

/-- Where no chunks are left, the run has ended. -/
theorem runChunks_nil_ok_iff {done : Unit} :
    runChunks env [] state = .ok done after ↔ after = state := by
  rw [runChunks, pure_ok_iff]
  exact ⟨fun h => h.2.symm, fun h => ⟨rfl, h.symm⟩⟩

/-- A run goes on after a chunk that does not end the script. -/
theorem runChunks_cons_ok_iff (hNext : ∀ flow middle, stepChunk env chunk state = .ok flow middle →
      flow = .next) {done : Unit} :
    runChunks env (chunk :: rest) state = .ok done after ↔
      ∃ middle, stepChunk env chunk state = .ok .next middle ∧
        runChunks env rest middle = .ok () after := by
  rw [runChunks, bind_ok_iff]
  constructor
  · rintro ⟨flow, middle, hStep, hRest⟩
    obtain rfl := hNext flow middle hStep
    exact ⟨middle, hStep, hRest⟩
  · rintro ⟨middle, hStep, hRest⟩
    exact ⟨.next, middle, hStep, hRest⟩

/-- A run goes on after an opcode that is executed and neither steers nor ends the script. -/
theorem runChunks_ofOpcode_ok_iff {op : Opcode} (hPlain : op.isConditional = false)
    (hReturn : op ≠ .returnOp) (hExecuting : state.executing = true) {done : Unit} :
    runChunks env (.ofOpcode op :: rest) state = .ok done after ↔
      state.opCount < env.maxOps ∧ ∃ middle,
        step env op { state with opCount := state.opCount + 1 } = .ok () middle ∧
        middle.stack.length + middle.alt.length ≤ maxStackDepth ∧
        runChunks env rest middle = .ok () after := by
  rw [runChunks_cons_ok_iff fun _ _ h =>
    ((stepChunk_ofOpcode_ok_iff hPlain hReturn hExecuting).1 h).1]
  simp only [stepChunk_ofOpcode_ok_iff hPlain hReturn hExecuting, true_and]
  constructor
  · rintro ⟨middle, ⟨hCount, hDone, hDepth⟩, hRest⟩
    exact ⟨hCount, middle, hDone, hDepth, hRest⟩
  · rintro ⟨hCount, middle, hDone, hDepth, hRest⟩
    exact ⟨middle, ⟨hCount, hDone, hDepth⟩, hRest⟩

/-- A run goes on after an opcode that leads to a known state, if the stacks are not too deep in
it. -/
theorem runChunks_ofOpcode_of_step {op : Opcode} {next : State}
    (hStep : step env op { state with opCount := state.opCount + 1 } = .ok () next)
    (hPlain : op.isConditional = false) (hReturn : op ≠ .returnOp)
    (hExecuting : state.executing = true) (hCount : state.opCount < env.maxOps) {done : Unit} :
    runChunks env (.ofOpcode op :: rest) state = .ok done after ↔
      next.stack.length + next.alt.length ≤ maxStackDepth ∧
        runChunks env rest next = .ok () after := by
  rw [runChunks_ofOpcode_ok_iff hPlain hReturn hExecuting, hStep]
  constructor
  · rintro ⟨-, middle, hSame, hRest⟩
    obtain ⟨-, rfl⟩ := EStateM.Result.ok.inj hSame
    exact hRest
  · intro hRest
    exact ⟨hCount, next, rfl, hRest⟩

/-- A run goes on after a payload that is pushed. -/
theorem runChunks_push_ok_iff {data : Bytes} (hPayload : chunk.payload = some data)
    (hExecuting : state.executing = true) {done : Unit} :
    runChunks env (chunk :: rest) state = .ok done after ↔
      data.length ≤ maxElementSize ∧ state.stack.length + 1 + state.alt.length ≤ maxStackDepth ∧
        runChunks env rest { state with stack := data :: state.stack } = .ok () after := by
  rw [runChunks_cons_ok_iff fun flow middle h =>
    ((stepChunk_push_ok_iff hPayload hExecuting).1 h).1]
  simp only [stepChunk_push_ok_iff hPayload hExecuting, true_and]
  constructor
  · rintro ⟨_, ⟨hLength, hDepth, rfl⟩, hRest⟩
    exact ⟨hLength, hDepth, hRest⟩
  · rintro ⟨hLength, hDepth, hRest⟩
    exact ⟨_, ⟨hLength, hDepth, rfl⟩, hRest⟩

/-! ## Conditionals -/

/-- A conditional that is executed takes the top item off and opens a branch that is taken if the item
is true. -/
theorem stepConditional_ifOp_ok_iff {done : Unit} :
    stepConditional .ifOp true state = .ok done after ↔
      ∃ top below, state.stack = top :: below ∧
        after = { state with
          stack := below, branches := ScriptNumber.isTrue top :: state.branches } := by
  change (pop >>= fun top => modify fun state =>
    { state with branches := ScriptNumber.isTrue top :: state.branches }) state = .ok done after ↔ _
  simp only [bind_ok_iff, pop_ok_iff, modify_ok_iff]
  constructor
  · rintro ⟨top, _, ⟨below, hStack, rfl⟩, rfl⟩
    exact ⟨top, below, hStack, rfl⟩
  · rintro ⟨top, below, hStack, rfl⟩
    exact ⟨top, _, ⟨below, hStack, rfl⟩, rfl⟩

/-- The innermost conditional turns to its other branch. -/
theorem stepConditional_elseOp {executing taken : Bool} {outer : List Bool}
    (hBranches : state.branches = taken :: outer) :
    stepConditional .elseOp executing state =
      .ok () { state with branches := (!taken) :: outer } := by
  obtain ⟨stack, alt, _, opCount⟩ := state
  obtain rfl := hBranches
  cases executing <;> rfl

/-- The innermost conditional is closed. -/
theorem stepConditional_endIfOp {executing taken : Bool} {outer : List Bool}
    (hBranches : state.branches = taken :: outer) :
    stepConditional .endIfOp executing state = .ok () { state with branches := outer } := by
  obtain ⟨stack, alt, _, opCount⟩ := state
  obtain rfl := hBranches
  cases executing <;> rfl

/-- A run goes on after a conditional, which is counted in skipped branches too. -/
theorem runChunks_conditional_of_step {op : Opcode} {next : State}
    (hConditional : op.isConditional = true)
    (hStep : stepConditional op state.executing { state with opCount := state.opCount + 1 } =
      .ok () next)
    (hCount : state.opCount < env.maxOps) {done : Unit} :
    runChunks env (.ofOpcode op :: rest) state = .ok done after ↔
      runChunks env rest next = .ok () after := by
  have hChunk : ∀ flow middle, stepChunk env (.ofOpcode op) state = .ok flow middle ↔
      flow = .next ∧ middle = next := by
    intro flow middle
    rw [stepChunk_eq_stepOpcode rfl]
    simp only [stepOpcode, Chunk.ofOpcode, Opcode.ofByte?_toByte, hConditional, if_true, bind_ok_iff,
      countOp_ok_iff, pure_ok_iff]
    constructor
    · rintro ⟨_, _, ⟨-, rfl⟩, _, _, hSame, rfl, rfl⟩
      rw [hStep] at hSame
      obtain ⟨-, rfl⟩ := EStateM.Result.ok.inj hSame
      exact ⟨rfl, rfl⟩
    · rintro ⟨rfl, rfl⟩
      exact ⟨(), _, ⟨hCount, rfl⟩, (), _, hStep, rfl, rfl⟩
  rw [runChunks_cons_ok_iff fun flow middle h => ((hChunk flow middle).1 h).1]
  simp only [hChunk, true_and, exists_eq_left]

/-- In a skipped branch everything but the conditionals is passed over: a payload, an unknown byte and
a plain opcode alike. -/
theorem stepChunk_skip (hSkipped : state.executing = false)
    (hPlain : chunk.payload = none → ∀ op, chunk.op? = some op → op.isConditional = false) :
    stepChunk env chunk state = .ok .next state := by
  cases hPayload : chunk.payload with
  | some data =>
    unfold stepChunk
    rw [hPayload, bind_ok_iff]
    refine ⟨state, state, get_ok_iff.2 ⟨rfl, rfl⟩, ?_⟩
    simp [hSkipped, pure_ok_iff]
  | none =>
    rw [stepChunk_eq_stepOpcode hPayload, hSkipped]
    unfold stepOpcode
    cases hOp : Opcode.ofByte? chunk.opcode with
    | none => exact pure_ok_iff.2 ⟨rfl, rfl⟩
    | some op =>
      have hNot : op.isConditional = false := hPlain hPayload op hOp
      simp [hNot, pure_ok_iff]

/-- In a skipped branch a run passes over everything but the conditionals. -/
theorem runChunks_skip (hSkipped : state.executing = false)
    (hPlain : chunk.payload = none → ∀ op, chunk.op? = some op → op.isConditional = false) :
    runChunks env (chunk :: rest) state = runChunks env rest state := by
  rw [runChunks, bind_of_ok (stepChunk_skip hSkipped hPlain)]

/-- In a skipped branch an opcode that steers nothing is passed over. -/
theorem runChunks_skip_ofOpcode {op : Opcode} (hSkipped : state.executing = false)
    (hPlain : op.isConditional = false) :
    runChunks env (.ofOpcode op :: rest) state = runChunks env rest state := by
  refine runChunks_skip hSkipped fun _ other hOther => ?_
  obtain rfl : op = other := Option.some.inj ((Opcode.ofByte?_toByte op).symm.trans hOther)
  exact hPlain

/-! ## Whole scripts -/

/-- A script runs to its end exactly when its chunks do and every conditional is closed. -/
theorem execute_eq_ok_iff {script : Script} {stack : Stack} {context : Option Context}
    {maxOps : Nat} :
    execute script stack context maxOps = (.ok (), after) ↔
      runChunks ⟨script.encode, context, maxOps⟩ script.chunks (State.start stack) = .ok () after ∧
        after.branches = [] := by
  have hBalanced : runBalanced ⟨script.encode, context, maxOps⟩ script.chunks (State.start stack) =
      .ok () after ↔
      runChunks ⟨script.encode, context, maxOps⟩ script.chunks (State.start stack) = .ok () after ∧
        after.branches = [] := by
    unfold runBalanced checkBalance
    simp only [bind_ok_iff, get_ok_iff]
    constructor
    · rintro ⟨_, _, hRun, _, _, ⟨rfl, rfl⟩, h⟩
      split_ifs at h with hClosed
      · obtain ⟨-, rfl⟩ := pure_ok_iff.1 h
        exact ⟨hRun, List.isEmpty_iff.1 hClosed⟩
      · exact (throw_ok_iff.1 h).elim
    · rintro ⟨hRun, hClosed⟩
      refine ⟨(), after, hRun, _, _, ⟨rfl, rfl⟩, ?_⟩
      rw [if_pos (List.isEmpty_iff.2 hClosed), pure_ok_iff]
      exact ⟨rfl, rfl⟩
  rw [← hBalanced]
  unfold execute
  cases runBalanced ⟨script.encode, context, maxOps⟩ script.chunks (State.start stack) with
  | ok _ final => simp
  | error failure final => simp

/-- A script succeeds exactly when it runs to its end and leaves a true item on top. -/
theorem evaluate_failure_eq_none_iff {script : Script} {stack : Stack} {context : Option Context}
    {maxOps : Nat} :
    (evaluate script stack context maxOps).failure = none ↔
      ∃ final, runChunks ⟨script.encode, context, maxOps⟩ script.chunks (State.start stack) =
          .ok () final ∧
        final.branches = [] ∧ ∃ top rest, final.stack = top :: rest ∧
        ScriptNumber.isTrue top = true := by
  simp only [← and_assoc, ← execute_eq_ok_iff]
  unfold evaluate
  rcases execute script stack context maxOps with ⟨_ | _, final⟩
  · simp
  · cases hStack : final.stack with
    | nil => simp [judge, hStack]
    | cons top rest =>
      simp [judge, hStack]

end UtxoChain.Machine
