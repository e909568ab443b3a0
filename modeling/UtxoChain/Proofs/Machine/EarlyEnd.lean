import UtxoChain.Proofs.Machine.Bounds
import UtxoChain.Proofs.Machine.Run
import UtxoChain.Proofs.Script.Nesting

/-!
# Scripts that end early

A run stops at the first `RETURN` that is executed. What stands after it is never run, so whatever
it is, the run ends in the same way. But the conditionals that are open at that point stay open, and
the check at the end of every run finds them: outside of all conditionals the item on top decides,
and inside of one the script fails, although the script may close it further on.
-/

namespace UtxoChain.Machine

open Stateful
open Script (Nests)

variable {env : Env} {chunk : Chunk} {chunks rest : List Chunk} {start state after : State}

/-! ## The chunk that ends the script -/

/-- A chunk ends the script in a state: it is `RETURN`, and it is executed. -/
structure Stops (chunk : Chunk) (state : State) : Prop where
  /-- The chunk has no payload. -/
  payload : chunk.payload = none
  /-- The opcode is the one that ends the script. -/
  op? : chunk.op? = some .returnOp
  /-- The branch is taken. -/
  executing : state.executing = true

/-- A step that never stops the run after what went before does not stop it. -/
theorem bind_ne_stop {α : Type} {first : Step α} {next : α → Step Flow}
    (h : ∀ value state after, next value state ≠ .ok .stop after) (state after : State) :
    (first >>= next) state ≠ .ok .stop after := by
  intro hStop
  obtain ⟨value, middle, -, hNext⟩ := bind_ok_iff.1 hStop
  exact h value middle after hNext

/-- Going on does not stop the run. -/
theorem pure_next_ne_stop (state after : State) :
    (pure .next : Step Flow) state ≠ .ok .stop after := by
  intro hStop
  exact absurd (pure_ok_iff.1 hStop).1 nofun

/-- An opcode stops a run exactly if it is the one that ends the script, and is executed. -/
theorem stepOpcode_stop_iff {byte : UInt8} {executing : Bool} :
    stepOpcode env byte executing state = .ok .stop after ↔
      Opcode.ofByte? byte = some .returnOp ∧ executing = true ∧ state = after := by
  unfold stepOpcode
  constructor
  · intro h
    cases hOp : Opcode.ofByte? byte with
    | none =>
      rw [hOp] at h
      cases executing with
      | true => exact (throw_ok_iff.1 h).elim
      | false => exact absurd h (pure_next_ne_stop _ _)
    | some op =>
      rw [hOp] at h
      dsimp only at h
      split_ifs at h with hConditional hExecuting hReturn
      -- A conditional, and any other opcode that is executed, goes on after its step.
      · exact absurd h (bind_ne_stop (fun _ => bind_ne_stop fun _ => pure_next_ne_stop) _ _)
      · rw [hReturn]
        exact ⟨rfl, hExecuting, (pure_ok_iff.1 h).2⟩
      · exact absurd h (bind_ne_stop
          (fun _ => bind_ne_stop fun _ => bind_ne_stop fun _ => pure_next_ne_stop) _ _)
      · exact absurd h (pure_next_ne_stop _ _)
  · rintro ⟨hOp, rfl, rfl⟩
    rw [hOp]
    rfl

/-- A chunk stops a run exactly if it ends the script there, and it changes nothing. -/
theorem stepChunk_stop_iff :
    stepChunk env chunk state = .ok .stop after ↔ Stops chunk state ∧ state = after := by
  cases hPayload : chunk.payload with
  | none =>
    rw [stepChunk_eq_stepOpcode hPayload, stepOpcode_stop_iff]
    constructor
    · rintro ⟨hOp, hExecuting, hSame⟩
      exact ⟨⟨hPayload, hOp, hExecuting⟩, hSame⟩
    · rintro ⟨hStops, hSame⟩
      exact ⟨hStops.op?, hStops.executing, hSame⟩
  | some data =>
    have hGoesOn : stepChunk env chunk state ≠ .ok .stop after := by
      unfold stepChunk
      rw [hPayload]
      refine bind_ne_stop (fun current => ?_) state after
      dsimp only
      split_ifs
      · exact bind_ne_stop fun _ => bind_ne_stop fun _ => pure_next_ne_stop
      · exact pure_next_ne_stop
    constructor
    · intro hStop
      exact absurd hStop hGoesOn
    · rintro ⟨hStops, -⟩
      exact absurd (hPayload.symm.trans hStops.payload) nofun

/-! ## Runs that come to it -/

/-- A run of some chunks meets a chunk that ends the script. -/
def MeetsReturn (env : Env) (chunks : List Chunk) (start : State) : Prop :=
  ∃ chunk rest state, Reaches env chunks start (chunk :: rest) state ∧ Stops chunk state

/-- What a run comes to after its first chunk, it comes to. -/
theorem Reaches.cons {left : List Chunk} (hStep : stepChunk env chunk start = .ok .next after)
    (h : Reaches env rest after left state) : Reaches env (chunk :: rest) start left state := by
  induction h with
  | start => exact .next .start hStep
  | next _ step ih => exact .next ih step

/-- A run meets the end of the script if it does so after its first chunk. -/
theorem MeetsReturn.cons (hStep : stepChunk env chunk start = .ok .next after)
    (h : MeetsReturn env rest after) : MeetsReturn env (chunk :: rest) start := by
  obtain ⟨stopping, left, state, hReaches, hStops⟩ := h
  exact ⟨stopping, left, state, hReaches.cons hStep, hStops⟩

/-- The chunks that are left stand at the end, and a run comes to the same state if others stand in
their place. -/
theorem Reaches.exists_before (h : Reaches env chunks start rest state) :
    ∃ before, chunks = before ++ rest ∧
      ∀ others, Reaches env (before ++ others) start others state := by
  induction h with
  | start => exact ⟨[], rfl, fun others => .start⟩
  | @next chunk rest state after _ step ih =>
    obtain ⟨before, hChunks, hOthers⟩ := ih
    refine ⟨before ++ [chunk], ?_, fun others => ?_⟩
    · rw [hChunks, List.append_assoc, List.singleton_append]
    · rw [List.append_assoc, List.singleton_append]
      exact .next (hOthers (chunk :: others)) step

/-- A run does not meet the end of the script if no chunk is `RETURN`. -/
theorem not_meetsReturn (h : ∀ chunk ∈ chunks, chunk.op? ≠ some .returnOp) :
    ¬ MeetsReturn env chunks start := by
  rintro ⟨chunk, rest, state, hReaches, hStops⟩
  obtain ⟨before, rfl, -⟩ := hReaches.exists_before
  exact h chunk (List.mem_append_right _ List.mem_cons_self) hStops.op?

/-- A run that comes to a chunk that ends the script ends there, well if no conditional is open. -/
theorem Reaches.runBalanced_eq (h : Reaches env chunks start (chunk :: rest) state)
    (hStops : Stops chunk state) :
    runBalanced env chunks start =
      if state.branches = [] then .ok () state else .error .unbalancedConditional state := by
  have hStopped : stepChunk env chunk state = .ok .stop state := stepChunk_stop_iff.2 ⟨hStops, rfl⟩
  have hRun : runChunks env chunks start = .ok () state := by
    rw [h.runChunks_eq, runChunks, bind_of_ok hStopped]
    rfl
  unfold runBalanced
  rw [bind_of_ok hRun]
  change (if state.branches.isEmpty then pure () else throw .unbalancedConditional :
    Step Unit) state = _
  simp only [List.isEmpty_iff]
  split_ifs <;> rfl

/-- A script that comes to `RETURN` ends there. Outside of all conditionals it is judged by the item
that is on top at that point, and inside of one it fails since that one is open. The chunks after
the opcode do not matter, as long as signatures commit to the same script. -/
theorem evaluate_of_return (script : Script) (stack : Stack) (context : Option Context)
    (maxOps : Nat) (chunk : Chunk) (rest : List Chunk) (state : State)
    (hReaches : Reaches ⟨script.encode, context, maxOps⟩ script.chunks (State.start stack)
      (chunk :: rest) state)
    (hStops : Stops chunk state) :
    evaluate script stack context maxOps =
      ⟨state.stack.head?,
        if state.branches = [] then judge state.stack else some .unbalancedConditional⟩ ∧
    ∃ before, script.chunks = before ++ chunk :: rest ∧
      ∀ others, runBalanced ⟨script.encode, context, maxOps⟩ (before ++ chunk :: others)
          (State.start stack) =
        runBalanced ⟨script.encode, context, maxOps⟩ script.chunks (State.start stack) := by
  have hRun := hReaches.runBalanced_eq hStops
  refine ⟨?_, ?_⟩
  · unfold evaluate execute
    rw [hRun]
    split_ifs <;> rfl
  · obtain ⟨before, hChunks, hOthers⟩ := hReaches.exists_before
    refine ⟨before, hChunks, fun others => ?_⟩
    rw [(hOthers (chunk :: others)).runBalanced_eq hStops, hRun]

end UtxoChain.Machine

namespace UtxoChain.Sample

open Machine
open Script (Nests)

/-- The script `1 RETURN 0`. -/
def earlyEnd : Script := ⟨[.ofOpcode .op1, .ofOpcode .returnOp, .ofOpcode .op0]⟩

/-- The script ends before it pushes the false item, and succeeds. -/
theorem evaluate_earlyEnd : evaluateStandalone earlyEnd = ⟨some [1], none⟩ := by
  have hReaches : Reaches ⟨earlyEnd.encode, none, defaultMaxOps⟩ earlyEnd.chunks (State.start [])
      [.ofOpcode .returnOp, .ofOpcode .op0] ⟨[[1]], [], [], 1⟩ := .next .start rfl
  exact (evaluate_of_return earlyEnd [] none defaultMaxOps _ _ _ hReaches ⟨rfl, rfl, rfl⟩).1

/-- The script `1 IF 1 RETURN ENDIF`. -/
def returnInside : Script :=
  ⟨[.ofOpcode .op1, .ofOpcode .ifOp, .ofOpcode .op1, .ofOpcode .returnOp, .ofOpcode .endIfOp]⟩

/-- The script closes its conditional, and comes to `RETURN` in the taken branch with a true item on
top, but it does not succeed. -/
theorem evaluate_returnInside :
    Nests 0 returnInside.chunks ∧
      (∃ rest state, Reaches ⟨returnInside.encode, none, defaultMaxOps⟩ returnInside.chunks
          (State.start []) (.ofOpcode .returnOp :: rest) state ∧
        Stops (.ofOpcode .returnOp) state ∧ judge state.stack = none) ∧
      evaluateStandalone returnInside = ⟨some [1], some .unbalancedConditional⟩ := by
  have hNests : Nests 0 returnInside.chunks :=
    .plain rfl (.opens rfl (.inl rfl) (.plain rfl (.plain rfl (.closes rfl .nil))))
  have hReaches : Reaches ⟨returnInside.encode, none, defaultMaxOps⟩ returnInside.chunks
      (State.start []) [.ofOpcode .returnOp, .ofOpcode .endIfOp] ⟨[[1]], [], [true], 3⟩ :=
    .next (.next (.next .start rfl) rfl) rfl
  exact ⟨hNests, ⟨_, _, hReaches, ⟨rfl, rfl, rfl⟩, rfl⟩, by decide +kernel⟩

end UtxoChain.Sample
