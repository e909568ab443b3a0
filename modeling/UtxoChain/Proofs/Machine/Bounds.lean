import Mathlib.Algebra.Order.BigOperators.Group.List
import Mathlib.Algebra.Order.Group.Nat
import UtxoChain.Machine.Run
import UtxoChain.Proofs.Machine.Limited

/-!
# The limits of a run

The depth of the stacks is checked after each opcode and each push. So between two chunks a run is
within the limits that it started from, and a failure finds at most the items there that one opcode
adds (`execute_fits`). No run addresses a place that is not there, whatever the stack that it starts
on (`execute_ne_positionFault`).
-/

namespace UtxoChain.Machine

section

variable {size depth : Nat}

/-! ## One chunk -/

/-- A change that leaves both stacks alone keeps the limits. -/
theorem keeps_modify {update : State → State} (hStack : ∀ state, (update state).stack = state.stack)
    (hAlt : ∀ state, (update state).alt = state.alt) : Keeps size (modify update : Step Unit) :=
  fun _ state h => h.congr (hStack state) (hAlt state)

/-- Counting an opcode keeps the limits. -/
theorem keeps_countOp (env : Env) : Keeps size (countOp env) := by
  have hCounted : Keeps size
      (modify fun state => { state with opCount := state.opCount + 1 } : Step Unit) :=
    keeps_modify (fun _ => rfl) fun _ => rfl
  refine hCounted.bind fun _ => ?_
  intro depth state h
  change Contained _ _ _ ((if env.maxOps < state.opCount then throw (.opLimitExceeded env.maxOps)
    else pure () : Step Unit) state)
  split_ifs
  · exact contained_throw h nofun
  · exact h

/-- Opening, turning or closing a conditional keeps the limits. -/
theorem keeps_stepConditional (op : Opcode) (executing : Bool) :
    Keeps size (stepConditional op executing) := by
  have hOpen : ∀ taken : Bool, Keeps size
      (modify fun state => { state with branches := taken :: state.branches } : Step Unit) :=
    fun taken => keeps_modify (fun _ => rfl) fun _ => rfl
  unfold stepConditional
  split
  · exact keeps_pop.bind fun _ => hOpen _
  · exact keeps_pop.bind fun _ => hOpen _
  · exact hOpen false
  · exact hOpen false
  rotate_right
  · exact keeps_pure ()
  -- What is left turns or closes the innermost conditional, if there is one.
  all_goals
    intro depth state h
    obtain ⟨stack, alt, branches, opCount⟩ := state
    cases branches with
    | nil => exact contained_throw h nofun
    | cons taken outer => exact h.congr rfl rfl

/-- The check of the depth brings a state back within limits that are not narrower. -/
theorem contained_checkDepth (hDepth : maxStackDepth ≤ depth) {state : State}
    (h : state.Fits size (depth + maxGrowth)) :
    Contained size (depth + maxGrowth) (fun _ after => after.Fits size depth)
      (checkDepth state) := by
  change Contained _ _ _ ((if maxStackDepth < state.stack.length + state.alt.length then
    throw (.stackOverflow maxStackDepth) else pure () : Step Unit) state)
  split_ifs with hDeep
  · exact contained_throw h nofun
  · exact ⟨h.stack_le, h.alt_le, Nat.le_trans (Nat.le_of_not_lt hDeep) hDepth⟩

/-- A step that ends within the limits, or fails with no more items beyond them than an opcode adds. -/
def Returns {α : Type} (size depth : Nat) (step : Step α) : Prop :=
  ∀ state : State, state.Fits size depth →
    Contained size (depth + maxGrowth) (fun _ after => after.Fits size depth) (step state)

/-- A step that keeps the limits returns to them. -/
theorem Keeps.returns {α : Type} {step : Step α} (h : Keeps size step) : Returns size depth step :=
  fun state hState =>
    (h depth state hState).mono (Nat.le_add_right _ _) fun _ _ hAfter => hAfter

/-- Steps that return to the limits do so in a row. -/
theorem Returns.bind {α β : Type} {first : Step α} {next : α → Step β}
    (hFirst : Returns size depth first) (hNext : ∀ value, Returns size depth (next value)) :
    Returns size depth (first >>= next) := by
  intro state h
  exact (hFirst state h).bind fun value after hAfter => hNext value after hAfter

/-- A limited step returns to the limits once the depth is checked. -/
theorem Limited.returns (hDepth : maxStackDepth ≤ depth) {step : Step Unit} (h : Limited size step)
    (flow : Flow) :
    Returns size depth (do
      step
      checkDepth
      return flow) := by
  intro state hState
  have hStep : Contained size (depth + maxGrowth)
      (fun _ after => after.Fits size (depth + maxGrowth)) (step state) :=
    (h depth state hState).mono (Nat.le_add_right _ _) fun _ _ hAfter => hAfter
  refine hStep.bind fun _ middle hMiddle => ?_
  exact (contained_checkDepth hDepth hMiddle).bind fun _ after hAfter => hAfter

section Run

variable (hSize : maxElementSize ≤ size) (hDepth : maxStackDepth ≤ depth)

include hSize hDepth

/-- A chunk without payload returns to the limits. -/
theorem returns_stepOpcode (env : Env) (byte : UInt8) (executing : Bool) :
    Returns size depth (stepOpcode env byte executing) := by
  unfold stepOpcode
  cases Opcode.ofByte? byte with
  | none =>
    have hUnknown : ScriptFailure.unknownOpcode byte ≠ .positionFault := nofun
    cases executing with
    | true => exact (keeps_throw hUnknown).returns
    | false => exact (keeps_pure Flow.next).returns
  | some op =>
    dsimp only
    split_ifs
    · refine (keeps_countOp env).returns.bind fun _ => ?_
      exact (keeps_stepConditional op executing).returns.bind fun _ => (keeps_pure _).returns
    · exact (keeps_pure _).returns
    · refine (keeps_countOp env).returns.bind fun _ => ?_
      exact (limited_step hSize env op).returns hDepth .next
    · exact (keeps_pure _).returns

/-- A chunk returns to the limits. -/
theorem returns_stepChunk (env : Env) (chunk : Chunk) :
    Returns size depth (stepChunk env chunk) := by
  intro state h
  obtain ⟨opcode, payload⟩ := chunk
  cases payload with
  | none => exact returns_stepOpcode hSize hDepth env opcode state.executing state h
  | some data =>
    change Contained _ _ _ ((if state.executing then do
      push data
      checkDepth
      return .next
    else return .next : Step Flow) state)
    split_ifs
    · exact (limited_push hSize data).returns hDepth .next state h
    · exact (keeps_pure Flow.next).returns state h

/-- Chunk by chunk a run returns to the limits. -/
theorem returns_runChunks (env : Env) (chunks : List Chunk) :
    Returns size depth (runChunks env chunks) := by
  induction chunks with
  | nil => exact (keeps_pure ()).returns
  | cons chunk rest ih =>
    refine (returns_stepChunk hSize hDepth env chunk).bind fun flow => ?_
    cases flow with
    | next => exact ih
    | stop => exact (keeps_pure ()).returns

/-- A run with its last check returns to the limits. -/
theorem returns_runBalanced (env : Env) (chunks : List Chunk) :
    Returns size depth (runBalanced env chunks) := by
  refine (returns_runChunks hSize hDepth env chunks).bind fun _ => ?_
  refine Keeps.returns ?_
  intro depth state h
  change Contained _ _ _ ((if state.branches.isEmpty then pure () else throw .unbalancedConditional :
    Step Unit) state)
  split_ifs
  · exact h
  · exact contained_throw h nofun

end Run

end

/-! ## The states of a run -/

/-- A run of some chunks comes to a state with some chunks left. -/
inductive Reaches (env : Env) (chunks : List Chunk) (start : State) : List Chunk → State → Prop
  /-- It starts with all of them left. -/
  | start : Reaches env chunks start chunks start
  /-- A chunk after which the run goes on is left no more. -/
  | next {chunk : Chunk} {rest : List Chunk} {state after : State}
      (before : Reaches env chunks start (chunk :: rest) state)
      (step : stepChunk env chunk state = .ok .next after) : Reaches env chunks start rest after

/-- From every state that a run comes to, the chunks that are left end it as the run ends. -/
theorem Reaches.runChunks_eq {env : Env} {chunks rest : List Chunk} {start state : State}
    (h : Reaches env chunks start rest state) :
    runChunks env chunks start = runChunks env rest state := by
  induction h with
  | start => rfl
  | next before step ih =>
    rw [ih, runChunks, Stateful.bind_of_ok step]

/-- Every state that a run comes to is within the limits, if the first is. -/
theorem Reaches.fits {env : Env} {chunks rest : List Chunk} {start state : State} {size depth : Nat}
    (hSize : maxElementSize ≤ size) (hDepth : maxStackDepth ≤ depth)
    (h : Reaches env chunks start rest state) (hStart : start.Fits size depth) :
    state.Fits size depth := by
  induction h with
  | start => exact hStart
  | @next chunk rest state after before step ih =>
    have hStep := returns_stepChunk hSize hDepth env chunk state ih
    rw [step] at hStep
    exact hStep

/-- A script that runs on a state within limits ends within them, or fails for a reason of the script
with no more items beyond them than an opcode adds. -/
theorem execute_contained {size depth : Nat} (hSize : maxElementSize ≤ size)
    (hDepth : maxStackDepth ≤ depth) (script : Script) {stack : Stack} (context : Option Context)
    (maxOps : Nat) (hStart : (State.start stack).Fits size depth) :
    (∀ final, execute script stack context maxOps = (.ok (), final) → final.Fits size depth) ∧
      ∀ failure final, execute script stack context maxOps = (.error failure, final) →
        failure ≠ .positionFault ∧ final.Fits size (depth + maxGrowth) := by
  have hRun := returns_runBalanced hSize hDepth ⟨script.encode, context, maxOps⟩ script.chunks
    (State.start stack) hStart
  unfold execute
  cases hResult : runBalanced ⟨script.encode, context, maxOps⟩ script.chunks (State.start stack) with
  | ok done state =>
    rw [hResult] at hRun
    refine ⟨?_, fun _ _ hFinal => absurd (Prod.mk.inj hFinal).1 nofun⟩
    intro final hFinal
    rw [← (Prod.mk.inj hFinal).2]
    exact hRun
  | error fault state =>
    rw [hResult] at hRun
    refine ⟨fun _ hFinal => absurd (Prod.mk.inj hFinal).1 nofun, ?_⟩
    intro failure final hFinal
    obtain ⟨hFault, hState⟩ := Prod.mk.inj hFinal
    rw [← Except.error.inj hFault, ← hState]
    exact hRun

/-- Every state is within some limits, however wide these are asked to be. -/
theorem State.exists_fits (state : State) (leastSize leastDepth : Nat) :
    ∃ size depth, leastSize ≤ size ∧ leastDepth ≤ depth ∧ state.Fits size depth := by
  have hLength : ∀ item ∈ state.stack ++ state.alt,
      item.length ≤ ((state.stack ++ state.alt).map List.length).sum :=
    fun item hItem => List.le_sum_of_mem (List.mem_map_of_mem hItem)
  refine ⟨leastSize + ((state.stack ++ state.alt).map List.length).sum,
    leastDepth + (state.stack.length + state.alt.length), Nat.le_add_right _ _,
    Nat.le_add_right _ _, ?_, ?_, Nat.le_add_left _ _⟩
  · intro item hItem
    exact Nat.le_add_left_of_le (hLength item (List.mem_append_left _ hItem))
  · intro item hItem
    exact Nat.le_add_left_of_le (hLength item (List.mem_append_right _ hItem))

/-- No run addresses a place that is not there, reckons a position before the start or past 64 bits, or
takes a quotient by zero, whatever the script, the stack, the transaction and the limit: it ends well or
fails for a reason of the script. -/
theorem execute_ne_positionFault (script : Script) (stack : Stack) (context : Option Context)
    (maxOps : Nat) :
    (execute script stack context maxOps).1 ≠ .error .positionFault ∧
      (evaluate script stack context maxOps).failure ≠ some .positionFault := by
  -- Limits that are wide enough for the stack contain the run.
  obtain ⟨size, depth, hSize, hDepth, hStart⟩ :=
    (State.start stack).exists_fits maxElementSize maxStackDepth
  have hRun := (execute_contained hSize hDepth script context maxOps hStart).2
  unfold evaluate
  rcases hResult : execute script stack context maxOps with ⟨result, final⟩
  cases result with
  | error failure =>
    obtain ⟨hFailure, -⟩ := hRun failure final hResult
    refine ⟨fun hFault => hFailure (Except.error.inj hFault), ?_⟩
    exact fun hFault => hFailure (Option.some_inj.1 hFault)
  | ok done =>
    refine ⟨nofun, ?_⟩
    -- A run that ended well is judged by the item on top.
    change judge final.stack ≠ some .positionFault
    cases final.stack with
    | nil => exact nofun
    | cons top rest =>
      rw [judge]
      split_ifs <;> exact nofun

/-- Scripts that run on a stack within the limits stay within them: at each chunk and at the end the
stacks hold at most 1000 items together, and after a failure at most 1003, and no item ever has more
than 4096 bytes. -/
theorem execute_fits (script : Script) (stack : Stack) (context : Option Context) (maxOps : Nat)
    (hDepth : stack.length ≤ maxStackDepth)
    (hSize : ∀ item ∈ stack, item.length ≤ maxElementSize) :
    (∀ rest state, Reaches ⟨script.encode, context, maxOps⟩ script.chunks (State.start stack) rest
        state → state.Fits maxElementSize maxStackDepth) ∧
      (∀ final, execute script stack context maxOps = (.ok (), final) →
        final.Fits maxElementSize maxStackDepth) ∧
      ∀ failure final, execute script stack context maxOps = (.error failure, final) →
        final.Fits maxElementSize (maxStackDepth + maxGrowth) := by
  have hStart : (State.start stack).Fits maxElementSize maxStackDepth :=
    ⟨hSize, fun _ hItem => absurd hItem List.not_mem_nil, hDepth⟩
  obtain ⟨hEnds, hFails⟩ := execute_contained (Nat.le_refl _) (Nat.le_refl _) script context maxOps
    hStart
  refine ⟨?_, hEnds, ?_⟩
  · intro rest state hReaches
    exact hReaches.fits (Nat.le_refl _) (Nat.le_refl _) hStart
  · intro failure final hFinal
    exact (hFails failure final hFinal).2

end UtxoChain.Machine

namespace UtxoChain.Sample

open Machine

/-- A stack of as many items as there may be. -/
def fullStack : Stack := List.replicate maxStackDepth [1]

/-- The script that copies the upper three items. -/
def copyThree : Script := ⟨[.ofOpcode .dup3]⟩

/-- Copying three items onto a full stack fails, and leaves three items more than there may be. -/
theorem fits_execute_copyThree :
    fullStack.length ≤ maxStackDepth ∧ (∀ item ∈ fullStack, item.length ≤ maxElementSize) ∧
      (execute copyThree fullStack none 1).1 = .error (.stackOverflow 1000) ∧
      (execute copyThree fullStack none 1).2.stack.length = 1003 ∧
      (execute copyThree fullStack none 1).2.Fits maxElementSize (maxStackDepth + maxGrowth) := by
  have hDepth : fullStack.length ≤ maxStackDepth := by decide +kernel
  have hSize : ∀ item ∈ fullStack, item.length ≤ maxElementSize := by decide +kernel
  have hFails : (execute copyThree fullStack none 1).1 = .error (.stackOverflow 1000) := by
    decide +kernel
  have hLength : (execute copyThree fullStack none 1).2.stack.length = 1003 := by decide +kernel
  have hEnds : execute copyThree fullStack none 1 =
      (.error (.stackOverflow 1000), (execute copyThree fullStack none 1).2) := by
    rw [← hFails]
  obtain ⟨-, -, hFits⟩ := execute_fits copyThree fullStack none 1 hDepth hSize
  exact ⟨hDepth, hSize, hFails, hLength, hFits _ _ hEnds⟩

end UtxoChain.Sample
