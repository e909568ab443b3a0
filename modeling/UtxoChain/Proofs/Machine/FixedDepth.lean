import Mathlib.Data.List.Perm.Basic
import UtxoChain.Proofs.Machine.Moves
import UtxoChain.Proofs.Machine.Pushing

/-!
# Opcodes of fixed depth

An opcode that moves items at fixed depths of the stack leaves what its moves make of the stack
(`step_of_shuffle?`). Scripts make the same moves by a number and the opcode that takes it
(`Move.WrittenAs`). So each opcode of fixed depth can be written with `pick`, `roll` and `drop` alone,
and does the same as what is so written (`fixedDepth_leadsTo_moves`).

A move that fails does so before it has changed anything, and if any of the moves of an opcode fails it
is the first. So what is written fails with the stack as it was, like the opcode itself.
-/

namespace UtxoChain.Machine

open Stateful

variable {op : Opcode} {shuffle : Shuffle}

/-! ## Steps -/

/-- Leaves a stack, and fails for want of items where there is none. -/
def leave : Option Stack → Step Unit
  | some stack => setStack stack
  | none => throw .stackUnderflow

section

variable {env : Env} {state : State}

/-- An opcode of fixed depth leaves what its moves make of the stack. -/
theorem step_of_shuffle? (h : shuffle? op = some shuffle) :
    step env op state = leave (Move.afterAll? shuffle.moves state.stack) state := by
  obtain ⟨change, hStep, hPerforms⟩ := exists_change_of_shuffle? h
  rw [hStep env]
  by_cases hEnough : shuffle.required ≤ state.stack.length
  · obtain ⟨stack, hStack, -⟩ := hPerforms.rearranges state.stack hEnough
    rw [← hPerforms.change_eq state.stack hEnough, hStack]
    exact rearrange_ok_iff.2 ⟨hEnough, stack, hStack, rfl⟩
  · have hShort : state.stack.length < shuffle.required := Nat.lt_of_not_le hEnough
    rw [(afterAll?_eq_none_iff h).2 hShort]
    exact bind_of_error (require_of_lt hShort)

/-- A depth that is written as a number is taken off, and must be below that of the others. -/
theorem popDepth_encode (state : State) {n : Nat} (hBound : n < WordSize.count.bound) :
    popDepth { state with stack := ScriptNumber.encode n :: state.stack } =
      if n < state.stack.length then .ok n state else .error .stackUnderflow state := by
  unfold popDepth
  rw [bind_of_ok (popIndex_encode hBound state.stack)]
  split_ifs with hThere
  · exact bind_of_ok (a := ()) (require_ok_iff.2 ⟨hThere, rfl⟩)
  · exact bind_of_error (require_of_lt (Nat.lt_succ_of_le (Nat.le_of_not_lt hThere)))

/-- A step that takes a depth off makes a move if it does so with each item that there may be. -/
theorem popDepth_bind_encode (move : Move) (hBound : move.depth < WordSize.count.bound)
    {next : Nat → Step Unit}
    (hNext : ∀ item, state.stack.item? move.depth = some item →
      next move.depth state = .ok () { state with stack := move.result state.stack item }) :
    (popDepth >>= next) { state with stack := ScriptNumber.encode move.depth :: state.stack } =
      leave (move.after? state.stack) state := by
  have hDepth := popDepth_encode state hBound
  split_ifs at hDepth with hThere
  · obtain ⟨item, hItem⟩ := exists_item? hThere
    rw [bind_of_ok hDepth, Move.after?, hItem, hNext item hItem]
    rfl
  · rw [bind_of_error hDepth, Move.after?_of_length_le (Nat.le_of_not_lt hThere)]
    rfl

/-- The opcode of copies makes the copy that the number on top asks for. -/
theorem step_pick_encode {n : Nat} (hBound : n < WordSize.count.bound) :
    step env .pick { state with stack := ScriptNumber.encode n :: state.stack } =
      leave ((Move.pick n).after? state.stack) state := by
  refine popDepth_bind_encode (.pick n) hBound fun item hItem => ?_
  refine (bind_of_ok (getStack_ok_iff.2 ⟨rfl, rfl⟩)).trans ?_
  exact bind_of_ok (located_ok_iff.2 ⟨hItem, rfl⟩)

/-- The opcode that brings up an item does so with the one that the number on top asks for. -/
theorem step_roll_encode {n : Nat} (hBound : n < WordSize.count.bound) :
    step env .roll { state with stack := ScriptNumber.encode n :: state.stack } =
      leave ((Move.roll n).after? state.stack) state := by
  refine popDepth_bind_encode (.roll n) hBound fun item hItem => ?_
  have hRemove : state.stack.remove? n = some (item, state.stack.eraseIdx n) := by
    rw [Stack.remove?, show state.stack.item? n = some item from hItem, Option.map_some]
  refine (bind_of_ok (getStack_ok_iff.2 ⟨rfl, rfl⟩)).trans ?_
  exact bind_of_ok (located_ok_iff.2 ⟨hRemove, rfl⟩)

/-- The opcode that drops takes the top item off. -/
theorem step_drop : step env .drop state = leave (Move.drop.after? state.stack) state := by
  obtain ⟨stack, alt, branches, opCount⟩ := state
  cases stack <;> rfl

end

/-! ## Runs -/

/-- Chunks make a move: the number of a depth, however it is pushed, and the opcode that takes it, or
the opcode that drops. -/
inductive Move.WrittenAs : Move → List Chunk → Prop
  /-- A copy of the item at a depth. -/
  | pick {depth : Nat} {index : Chunk} (hIndex : index.item? = some (ScriptNumber.encode depth)) :
    WrittenAs (.pick depth) [index, .ofOpcode .pick]
  /-- The item at a depth brought to the top. -/
  | roll {depth : Nat} {index : Chunk} (hIndex : index.item? = some (ScriptNumber.encode depth)) :
    WrittenAs (.roll depth) [index, .ofOpcode .roll]
  /-- The top item taken off. -/
  | drop : WrittenAs .drop [.ofOpcode .drop]

/-- What chunks count if all of them are executed. -/
def opsOf (chunks : List Chunk) : Nat :=
  chunks.countP (·.payload.isNone)

/-- Chunks in a row count what each of them counts. -/
theorem opsOf_append (chunks others : List Chunk) :
    opsOf (chunks ++ others) = opsOf chunks + opsOf others :=
  List.countP_append

/-- Chunks leave a stack: whatever follows them runs on that stack, and in a state that is otherwise
kept but for the opcodes that they count. Where there is no such stack they fail for want of items, and
the stack is kept. -/
def Leaves (env : Env) (chunks : List Chunk) (state : State) : Option Stack → Prop
  | some stack => ∀ rest, runChunks env (chunks ++ rest) state =
      runChunks env rest { state with stack, opCount := state.opCount + opsOf chunks }
  | none => ∃ count, ∀ rest, runChunks env (chunks ++ rest) state =
      .error .stackUnderflow { state with opCount := count }

section

variable {env : Env} {state : State} {chunks : List Chunk} {stack? : Option Stack}

/-- Chunks leave a stack if a run goes on from it after them, or fails for want of items. -/
theorem leaves_of_runChunks_eq
    (h : ∀ rest, runChunks env (chunks ++ rest) state = (leave stack? >>= fun _ => runChunks env rest)
      { state with opCount := state.opCount + opsOf chunks }) : Leaves env chunks state stack? := by
  cases stack? with
  | some stack => exact h
  | none => exact ⟨_, h⟩

/-- What fails for want of items does so whatever follows. -/
theorem Leaves.append_none {others : List Chunk} (h : Leaves env chunks state none) :
    Leaves env (chunks ++ others) state none := by
  obtain ⟨count, hFails⟩ := h
  refine ⟨count, fun rest => ?_⟩
  rw [List.append_assoc]
  exact hFails (others ++ rest)

/-- What leaves a stack may be followed by what leaves one. -/
theorem Leaves.append {others : List Chunk} {middle after : Stack}
    (hFirst : Leaves env chunks state (some middle))
    (hOthers : Leaves env others
      { state with stack := middle, opCount := state.opCount + opsOf chunks } (some after)) :
    Leaves env (chunks ++ others) state (some after) := by
  intro rest
  rw [List.append_assoc, hFirst, hOthers, opsOf_append, Nat.add_assoc]

/-- A run goes on after a plain opcode from the stack that its step leaves. -/
theorem runChunks_ofOpcode_of_leave {op : Opcode} {rest : List Chunk} {after : State}
    (hPlain : op.isConditional = false) (hReturn : op ≠ .returnOp)
    (hExecuting : state.executing = true) (hCount : state.opCount < env.maxOps)
    (hStep : step env op { state with opCount := state.opCount + 1 } = leave stack? after)
    (hDepth : ∀ stack, stack? = some stack → stack.length + after.alt.length ≤ maxStackDepth) :
    runChunks env (.ofOpcode op :: rest) state =
      (leave stack? >>= fun _ => runChunks env rest) after := by
  rw [runChunks]
  cases stack? with
  | some stack =>
    have hChunk : stepChunk env (.ofOpcode op) state = .ok .next { after with stack } :=
      (stepChunk_ofOpcode_ok_iff hPlain hReturn hExecuting).2
        ⟨rfl, hCount, hStep, hDepth stack rfl⟩
    rw [bind_of_ok hChunk]
    rfl
  | none =>
    have hChunk : stepChunk env (.ofOpcode op) state = .error .stackUnderflow after := by
      rw [stepChunk_ofOpcode_eq hPlain hReturn hExecuting hCount]
      exact bind_of_error hStep
    rw [bind_of_error hChunk]
    rfl

/-- The form of a position is short. -/
theorem length_encode_le {n : Nat} (hBound : n < WordSize.count.bound) :
    (ScriptNumber.encode n).length ≤ maxElementSize := by
  have hWidth := ScriptNumber.width_le_nine (Nat.lt_of_lt_of_le hBound (by decide))
  rw [ScriptNumber.length_encode_natCast]
  exact hWidth.trans (by decide)

/-- The number of a depth, and an opcode that makes the move of it, leave what the move makes of the
stack. -/
theorem leaves_index {move : Move} {index : Chunk} {op : Opcode}
    (hIndex : index.item? = some (ScriptNumber.encode move.depth))
    (hBound : move.depth < WordSize.count.bound)
    (hStep : ∀ state, step env op
      { state with stack := ScriptNumber.encode move.depth :: state.stack } =
        leave (move.after? state.stack) state)
    (hPlain : op.isConditional = false) (hReturn : op ≠ .returnOp)
    (hExecuting : state.executing = true)
    (hRoom : state.stack.length + 1 + state.alt.length ≤ maxStackDepth)
    (hCount : state.opCount + opsOf [index, .ofOpcode op] ≤ env.maxOps) :
    Leaves env [index, .ofOpcode op] state (move.after? state.stack) := by
  have hOps : opsOf [index, .ofOpcode op] = cost index + 1 := by
    rw [opsOf, List.countP_cons, Nat.add_comm]
    rfl
  rw [hOps] at hCount
  -- The number takes up one place, and the opcode frees it before it makes the move.
  have hPushed : stepChunk env index state = .ok .next { state with
      stack := ScriptNumber.encode move.depth :: state.stack
      opCount := state.opCount + cost index } :=
    (stepChunk_item_ok_iff hIndex hExecuting (by omega)).2
      ⟨rfl, length_encode_le hBound, hRoom, by omega, rfl⟩
  refine leaves_of_runChunks_eq fun rest => ?_
  change runChunks env (index :: .ofOpcode op :: rest) state = _
  rw [runChunks, bind_of_ok hPushed, hOps]
  refine runChunks_ofOpcode_of_leave hPlain hReturn hExecuting (Nat.lt_of_succ_le hCount)
    (hStep { state with opCount := state.opCount + (cost index + 1) }) fun stack hStack => ?_
  have hLength := Move.length_le_of_after? hStack
  change stack.length + state.alt.length ≤ maxStackDepth
  omega

/-- A move that is written leaves what it makes of the stack. -/
theorem Move.WrittenAs.leaves {move : Move} (h : move.WrittenAs chunks)
    (hBound : move.depth < WordSize.count.bound) (hExecuting : state.executing = true)
    (hRoom : state.stack.length + 1 + state.alt.length ≤ maxStackDepth)
    (hCount : state.opCount + opsOf chunks ≤ env.maxOps) :
    Leaves env chunks state (move.after? state.stack) := by
  cases h with
  | pick hIndex =>
    exact leaves_index hIndex hBound (fun _ => step_pick_encode hBound) rfl nofun hExecuting hRoom
      hCount
  | roll hIndex =>
    exact leaves_index hIndex hBound (fun _ => step_roll_encode hBound) rfl nofun hExecuting hRoom
      hCount
  | drop =>
    refine leaves_of_runChunks_eq fun rest => ?_
    refine runChunks_ofOpcode_of_leave rfl nofun hExecuting (Nat.lt_of_succ_le hCount) step_drop
      fun stack hStack => ?_
    have hLength := Move.length_le_of_after? hStack
    change stack.length + state.alt.length ≤ maxStackDepth
    omega

/-- Moves that are written leave what they make of the stack together. -/
theorem leaves_flatten {moves : List Move} {fragments : List (List Chunk)} {after : Stack}
    (h : List.Forall₂ Move.WrittenAs moves fragments)
    (hAfter : Move.afterAll? moves state.stack = some after) (hExecuting : state.executing = true)
    (hRoom : state.stack.length + moves.length + state.alt.length ≤ maxStackDepth)
    (hCount : state.opCount + opsOf fragments.flatten ≤ env.maxOps) :
    Leaves env fragments.flatten state (some after) := by
  induction h generalizing state with
  | nil =>
    obtain rfl := Option.some.inj hAfter
    exact fun rest => rfl
  | @cons move fragment moves fragments hMove hOthers ih =>
    obtain ⟨middle, hMiddle, hLater⟩ := Move.afterAll?_cons_eq_some_iff.1 hAfter
    -- The first item is there, so its depth is far below the bound of positions; and the first move
    -- adds one item at most, which leaves room for what the others add.
    have hThere := Move.depth_lt_of_after? hMiddle
    have hLength := Move.length_le_of_after? hMiddle
    have hBound : move.depth < WordSize.count.bound := by
      have hLimit : maxStackDepth < WordSize.count.bound := by decide
      omega
    rw [List.length_cons] at hRoom
    rw [List.flatten_cons, opsOf_append] at hCount
    have hFirst : Leaves env fragment state (some middle) := by
      rw [← hMiddle]
      exact hMove.leaves hBound hExecuting (by omega) (by omega)
    rw [List.flatten_cons]
    refine hFirst.append (ih hLater hExecuting ?_ ?_)
    · change middle.length + moves.length + state.alt.length ≤ maxStackDepth
      omega
    · change state.opCount + opsOf fragment + opsOf fragments.flatten ≤ env.maxOps
      omega

/-- An opcode of fixed depth leaves what its moves make of the stack. -/
theorem leaves_ofOpcode (h : shuffle? op = some shuffle) (hExecuting : state.executing = true)
    (hRoom : state.stack.length + 3 + state.alt.length ≤ maxStackDepth)
    (hCount : state.opCount < env.maxOps) :
    Leaves env [.ofOpcode op] state (Move.afterAll? shuffle.moves state.stack) := by
  obtain ⟨hPlain, hReturn⟩ := plain_of_shuffle? h
  obtain ⟨first, others, hMoves, -, -, hFew⟩ := exists_first_of_shuffle? h
  refine leaves_of_runChunks_eq fun rest => ?_
  refine runChunks_ofOpcode_of_leave hPlain hReturn hExecuting hCount (step_of_shuffle? h)
    fun stack hStack => ?_
  have hLength := Move.length_le_of_afterAll? hStack
  rw [hMoves, List.length_cons] at hLength
  change stack.length + state.alt.length ≤ maxStackDepth
  omega

/-- What is written for the moves of an opcode of fixed depth leaves what the opcode leaves. -/
theorem leaves_flatten_of_shuffle? (h : shuffle? op = some shuffle)
    {fragments : List (List Chunk)} (hWritten : List.Forall₂ Move.WrittenAs shuffle.moves fragments)
    (hExecuting : state.executing = true)
    (hRoom : state.stack.length + 3 + state.alt.length ≤ maxStackDepth)
    (hCount : state.opCount + opsOf fragments.flatten ≤ env.maxOps) :
    Leaves env fragments.flatten state (Move.afterAll? shuffle.moves state.stack) := by
  obtain ⟨first, others, hMoves, hRequired, hDepth, hFew⟩ := exists_first_of_shuffle? h
  cases hAfter : Move.afterAll? shuffle.moves state.stack with
  | some after =>
    refine leaves_flatten hWritten hAfter hExecuting ?_ hCount
    rw [hMoves, List.length_cons]
    omega
  | none =>
    -- Where any move fails, the first one does, which reaches for the lowest item.
    have hShort := (afterAll?_eq_none_iff h).1 hAfter
    have hFirst : first.after? state.stack = none :=
      Move.after?_of_length_le (by omega)
    rw [hMoves] at hWritten
    cases hWritten with
    | @cons _ fragment _ fragments hMove _ =>
      rw [List.flatten_cons, opsOf_append] at hCount
      have hBound : first.depth < WordSize.count.bound := Nat.lt_of_le_of_lt hDepth (by decide)
      have hFails : Leaves env fragment state (first.after? state.stack) :=
        hMove.leaves hBound hExecuting (by omega) (by omega)
      rw [hFirst] at hFails
      exact hFails.append_none

/-- What is written for a move leaves what the move makes of a stack that has the item. -/
theorem Move.WrittenAs.leaves_result {move : Move} (h : move.WrittenAs chunks) {item : Bytes}
    (hItem : state.stack[move.depth]? = some item) (hExecuting : state.executing = true)
    (hRoom : state.stack.length + 1 + state.alt.length ≤ maxStackDepth)
    (hCount : state.opCount + opsOf chunks ≤ env.maxOps) :
    Leaves env chunks state (some (move.result state.stack item)) := by
  have hAfter : move.after? state.stack = some (move.result state.stack item) := by
    rw [after?, Stack.item?, hItem, Option.map_some]
  have hBound : move.depth < WordSize.count.bound := by
    have hThere := depth_lt_of_after? hAfter
    have hLimit : maxStackDepth < WordSize.count.bound := by decide
    omega
  rw [← hAfter]
  exact h.leaves hBound hExecuting hRoom hCount

end

/-- Opcodes of fixed depth do what is written for them with numbers, `pick`, `roll` and `drop`. Where
the stacks have room for three items and the opcodes may be counted, both leave the same stack, and
both fail for want of items, and keep the stack, exactly if there are fewer than the opcode asks for.
Of the opcodes with which these are written, the one brings up the item at a depth and loses none and
adds none, and the other adds a copy of it to all that was there. -/
theorem fixedDepth_leadsTo_moves :
    (∀ op shuffle, shuffle? op = some shuffle →
      ∀ fragments, List.Forall₂ Move.WrittenAs shuffle.moves fragments →
      ∀ (env other : Env) (state : State), state.executing = true →
        state.stack.length + 3 + state.alt.length ≤ maxStackDepth →
        state.opCount < env.maxOps → state.opCount + opsOf fragments.flatten ≤ other.maxOps →
        Leaves env [.ofOpcode op] state (Move.afterAll? shuffle.moves state.stack) ∧
          Leaves other fragments.flatten state (Move.afterAll? shuffle.moves state.stack) ∧
          (Move.afterAll? shuffle.moves state.stack = none ↔
            state.stack.length < shuffle.required)) ∧
    (∀ (env : Env) (state : State) (index : Nat), index < state.stack.length →
      state.executing = true → state.stack.length + 1 + state.alt.length ≤ maxStackDepth →
      ∃ item, state.stack[index]? = some item ∧
        (item :: state.stack.eraseIdx index).Perm state.stack ∧
        (∀ chunks, (Move.roll index).WrittenAs chunks →
          state.opCount + opsOf chunks ≤ env.maxOps →
          Leaves env chunks state (some (item :: state.stack.eraseIdx index))) ∧
        ∀ chunks, (Move.pick index).WrittenAs chunks → state.opCount + opsOf chunks ≤ env.maxOps →
          Leaves env chunks state (some (item :: state.stack))) := by
  constructor
  · intro op shuffle hShuffle fragments hWritten env other state hExecuting hRoom hCount hOther
    exact ⟨leaves_ofOpcode hShuffle hExecuting hRoom hCount,
      leaves_flatten_of_shuffle? hShuffle hWritten hExecuting hRoom hOther,
      afterAll?_eq_none_iff hShuffle⟩
  · intro env state index hIndex hExecuting hRoom
    have hItem : state.stack[index]? = some state.stack[index] := List.getElem?_eq_getElem hIndex
    refine ⟨_, hItem, List.getElem_cons_eraseIdx_perm hIndex, ?_, ?_⟩
    · intro chunks hRoll hCount
      exact hRoll.leaves_result hItem hExecuting hRoom hCount
    · intro chunks hPick hCount
      exact hPick.leaves_result hItem hExecuting hRoom hCount

end UtxoChain.Machine

namespace UtxoChain.Sample

open Machine

/-- The third pair is brought up by two opcodes that take a number. -/
def writtenRot2 : List (List Chunk) :=
  [[.ofOpcode .op5, .ofOpcode .roll], [⟨1, some [5]⟩, .ofOpcode .roll]]

/-- Six items and no more. -/
def sixItems : State :=
  .start [[6], [5], [4], [3], [2], [1]]

/-- The third pair is brought up by one opcode as by those that are written for it, and neither finds
it where the lowest item is missing. With it, the opcode that brings up an item keeps all six. -/
theorem runChunks_writtenRot2 :
    runChunks ⟨[], none, 1⟩ [.ofOpcode .rot2] sixItems =
        .ok () ⟨[[2], [1], [6], [5], [4], [3]], [], [], 1⟩ ∧
      runChunks ⟨[], none, 3⟩ writtenRot2.flatten sixItems =
        .ok () ⟨[[2], [1], [6], [5], [4], [3]], [], [], 3⟩ ∧
      Leaves ⟨[], none, 1⟩ [.ofOpcode .rot2] (.start [[6], [5], [4], [3], [2]]) none ∧
      Leaves ⟨[], none, 3⟩ writtenRot2.flatten (.start [[6], [5], [4], [3], [2]]) none ∧
      Leaves ⟨[], none, 2⟩ [.ofOpcode .op2, .ofOpcode .roll] sixItems
        (some [[4], [6], [5], [3], [2], [1]]) := by
  have hWritten : List.Forall₂ Move.WrittenAs [.roll 5, .roll 5] writtenRot2 :=
    .cons (.roll rfl) (.cons (.roll rfl) .nil)
  obtain ⟨hAgree, hSingle⟩ := fixedDepth_leadsTo_moves
  obtain ⟨hRot2, hMoves, -⟩ := hAgree .rot2 _ rfl _ hWritten ⟨[], none, 1⟩ ⟨[], none, 3⟩ sixItems
    rfl (by decide) (by decide) (by decide)
  obtain ⟨hRot2Fails, hMovesFail, -⟩ := hAgree .rot2 _ rfl _ hWritten ⟨[], none, 1⟩ ⟨[], none, 3⟩
    (.start [[6], [5], [4], [3], [2]]) rfl (by decide) (by decide) (by decide)
  obtain ⟨item, hItem, -, hRoll, -⟩ := hSingle ⟨[], none, 2⟩ sixItems 2 (by decide) rfl (by decide)
  obtain rfl : [4] = item := Option.some.inj hItem
  exact ⟨hRot2 [], hMoves [], hRot2Fails, hMovesFail, hRoll _ (.roll rfl) (by decide)⟩

end UtxoChain.Sample
