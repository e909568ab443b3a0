import UtxoChain.Proofs.Machine.Limited

/-!
# Moves of single items

Some opcodes copy, lift or drop items at fixed depths of the stack, and each does it in a way of its
own. What they do can be put together from the moves of single items: a copy of the item at a depth,
the item at a depth brought to the top, and the top item dropped. The opcodes are listed with their
moves (`shuffle?`); each rearranges the stack as its moves do (`exists_change_of_shuffle?`), and asks
for exactly the items without which these cannot be made (`afterAll?_eq_none_iff`).
-/

namespace UtxoChain.Machine

/-! ## Moves -/

/-- A way to move one item of a stack. -/
inductive Move
  /-- Copies the item at a depth onto the stack. -/
  | pick (depth : Nat)
  /-- Brings the item at a depth to the top. -/
  | roll (depth : Nat)
  /-- Takes the top item off. -/
  | drop

namespace Move

/-- The depth of the item that is moved. -/
def depth : Move → Nat
  | .pick depth | .roll depth => depth
  | .drop => 0

/-- The stack after the move of an item. -/
def result (stack : Stack) (item : Bytes) : Move → Stack
  | .pick _ => item :: stack
  | .roll depth => item :: stack.eraseIdx depth
  | .drop => stack.tail

/-- The stack after a move, if the item to be moved is there. -/
def after? (move : Move) (stack : Stack) : Option Stack :=
  (stack.item? move.depth).map fun item => move.result stack item

/-- The stack after moves in a row. -/
def afterAll? : List Move → Stack → Option Stack
  | [], stack => some stack
  | move :: moves, stack => move.after? stack >>= afterAll? moves

variable {move : Move} {moves : List Move} {stack after : Stack}

/-- An item that is not there is not moved. -/
theorem after?_of_length_le (h : stack.length ≤ move.depth) : move.after? stack = none := by
  rw [after?, Stack.item?, List.getElem?_eq_none h, Option.map_none]

/-- An item that is moved is there. -/
theorem depth_lt_of_after? (h : move.after? stack = some after) : move.depth < stack.length := by
  by_contra hMissing
  rw [after?_of_length_le (Nat.le_of_not_lt hMissing)] at h
  exact absurd h nofun

/-- A move makes a stack longer by one item at most. -/
theorem length_le_of_after? (h : move.after? stack = some after) :
    after.length ≤ stack.length + 1 := by
  obtain ⟨item, -, rfl⟩ := Option.map_eq_some_iff.1 h
  cases move with
  | pick depth => exact Nat.le_refl _
  | roll depth => exact Nat.succ_le_succ (List.length_eraseIdx_le stack depth)
  | drop =>
    rw [result, List.length_tail]
    omega

/-- Moves in a row are made if the first one is and then the others are. -/
theorem afterAll?_cons_eq_some_iff :
    afterAll? (move :: moves) stack = some after ↔
      ∃ middle, move.after? stack = some middle ∧ afterAll? moves middle = some after :=
  Option.bind_eq_some_iff

/-- Moves make a stack longer by one item each at most. -/
theorem length_le_of_afterAll? (h : afterAll? moves stack = some after) :
    after.length ≤ stack.length + moves.length := by
  induction moves generalizing stack with
  | nil =>
    obtain rfl := Option.some.inj h
    exact Nat.le_refl _
  | cons move moves ih =>
    obtain ⟨middle, hMiddle, hLater⟩ := afterAll?_cons_eq_some_iff.1 h
    have hFirst := length_le_of_after? hMiddle
    have hOthers := ih hLater
    rw [List.length_cons]
    omega

/-- A single move in a row is that move. -/
theorem afterAll?_singleton (move : Move) (stack : Stack) :
    afterAll? [move] stack = move.after? stack :=
  Option.bind_fun_some (move.after? stack)

/-- An item that is copied again and again from one depth has been followed there by the items above
it: so these are copied in their order. -/
theorem afterAll?_replicate_pick {index count : Nat} {stack : Stack} (hIndex : index < stack.length)
    (hCount : count ≤ index + 1) :
    afterAll? (List.replicate count (.pick index)) stack =
      some ((stack.take (index + 1)).drop (index + 1 - count) ++ stack) := by
  induction count generalizing stack with
  | zero =>
    have hNone : (stack.take (index + 1)).drop (index + 1) = [] :=
      List.drop_of_length_le (List.length_take_le _ _)
    rw [Nat.sub_zero, hNone]
    rfl
  | succ count ih =>
    obtain ⟨item, hItem⟩ := exists_item? hIndex
    have hFirst : (pick index).after? stack = some (item :: stack) := by
      rw [after?, depth, hItem, Option.map_some, result]
    have hOthers := @ih (item :: stack) (Nat.lt_succ_of_lt hIndex) (by omega)
    rw [List.replicate_succ, afterAll?_cons_eq_some_iff]
    refine ⟨_, hFirst, hOthers.trans ?_⟩
    -- The copy lies above the items of before, so the depth reaches one item less far into these.
    have hAbove : index + 1 - count = index - count + 1 := by omega
    have hReach : index - count ≤ (stack.take index).length := by
      rw [List.length_take_of_le hIndex.le]
      omega
    have hLowest : stack.take (index + 1) = stack.take index ++ [item] := by
      rw [List.take_add_one, show stack[index]? = some item from hItem]
      rfl
    rw [List.take_succ_cons, hAbove, List.drop_succ_cons, Nat.add_sub_add_right, hLowest,
      List.drop_append_of_le_length hReach, List.append_assoc]
    rfl

/-- Bringing up an item is taking it out and putting it on. -/
theorem after?_roll (index : Nat) (stack : Stack) :
    (roll index).after? stack = do
      let (item, rest) ← stack.remove? index
      return item :: rest := by
  rw [after?, depth, Stack.remove?]
  cases stack.item? index <;> rfl

end Move

/-! ## What the opcodes do to the stack -/

namespace Stack

variable {stack : Stack}

/-- An item is taken out below another one. -/
theorem remove?_cons_succ (item : Bytes) (stack : Stack) (index : Nat) :
    remove? (item :: stack) (index + 1) =
      (stack.remove? index).map fun (other, rest) => (other, item :: rest) := by
  rw [remove?, remove?, item?, List.getElem?_cons_succ, Option.map_map]
  rfl

/-- Copying items is copying the lowest of them as often as there are items. -/
theorem copy?_eq_afterAll? {index count : Nat} (hCount : count ≤ index + 1)
    (hEnough : index + 1 ≤ stack.length) :
    stack.copy? (index + 1) count =
      Move.afterAll? (List.replicate count (.pick index)) stack := by
  rw [copy?, if_pos ⟨hCount, hEnough⟩, Move.afterAll?_replicate_pick hEnough hCount]

/-- Bringing up the third pair is bringing up its lower item, and then the other one. -/
theorem rot2_eq_afterAll? (stack : Stack) :
    (do
      let (first, stack) ← stack.remove? 5
      let (second, stack) ← stack.remove? 4
      return second :: first :: stack) = Move.afterAll? [.roll 5, .roll 5] stack := by
  rw [Move.afterAll?, Move.after?_roll]
  cases stack.remove? 5 with
  | none => rfl
  | some taken =>
    obtain ⟨first, middle⟩ := taken
    change _ = Move.afterAll? [.roll 5] (first :: middle)
    rw [Move.afterAll?_singleton, Move.after?_roll, remove?_cons_succ]
    cases hSecond : middle.remove? 4 <;> simp [hSecond]

/-- Exchanging the upper two pairs is bringing up the lower item of the second, and then the other
one. -/
theorem swap2_eq_afterAll? (hEnough : 4 ≤ stack.length) :
    (do
      let (upper, stack) ← stack.split? 2
      let (lower, stack) ← stack.split? 2
      return lower ++ upper ++ stack) = Move.afterAll? [.roll 3, .roll 3] stack := by
  match stack, hEnough with
  | first :: second :: third :: fourth :: rest, _ =>
    simp [split?, Move.afterAll?, Move.after?, Move.depth, Move.result, item?]

/-- Dropping the second item is bringing it up and dropping it. -/
theorem nip_eq_afterAll? (stack : Stack) :
    (stack.remove? 1).map (·.2) = Move.afterAll? [.roll 1, .drop] stack := by
  rw [Move.afterAll?, Move.after?_roll]
  cases stack.remove? 1 <;> rfl

/-- Copying the top item below the second is bringing up the second and then copying the first. -/
theorem tuck_eq_afterAll? (hEnough : 2 ≤ stack.length) :
    (do
      let top ← stack.item? 0
      stack.insert? 2 top) = Move.afterAll? [.roll 1, .pick 1] stack := by
  match stack, hEnough with
  | top :: second :: rest, _ =>
    simp [insert?, Move.afterAll?, Move.after?, Move.depth, Move.result, item?]

end Stack

/-- What an opcode of fixed depth does: the items that it asks for, and the moves of single items that
it stands for. -/
structure Shuffle where
  /-- The number of items that must be there. -/
  required : Nat
  /-- The moves, the first one first. -/
  moves : List Move

/-- What the opcodes of fixed depth do. -/
def shuffle? : Opcode → Option Shuffle
  | .dup => some ⟨1, [.pick 0]⟩
  | .over => some ⟨2, [.pick 1]⟩
  | .dup2 => some ⟨2, [.pick 1, .pick 1]⟩
  | .dup3 => some ⟨3, [.pick 2, .pick 2, .pick 2]⟩
  | .over2 => some ⟨4, [.pick 3, .pick 3]⟩
  | .swap => some ⟨2, [.roll 1]⟩
  | .rot => some ⟨3, [.roll 2]⟩
  | .swap2 => some ⟨4, [.roll 3, .roll 3]⟩
  | .rot2 => some ⟨6, [.roll 5, .roll 5]⟩
  | .nip => some ⟨2, [.roll 1, .drop]⟩
  | .tuck => some ⟨2, [.roll 1, .pick 1]⟩
  | _ => none

variable {op : Opcode} {shuffle : Shuffle}

/-- An opcode of fixed depth neither steers nor ends a script. -/
theorem plain_of_shuffle? (h : shuffle? op = some shuffle) :
    op.isConditional = false ∧ op ≠ .returnOp := by
  constructor
  · cases op <;> first | rfl | cases h
  · rintro rfl
    cases h

/-- The first move of an opcode takes the lowest of the items that the opcode asks for, and there are
at most three moves. -/
theorem exists_first_of_shuffle? (h : shuffle? op = some shuffle) :
    ∃ first others, shuffle.moves = first :: others ∧ shuffle.required = first.depth + 1 ∧
      first.depth ≤ 5 ∧ others.length ≤ 2 := by
  cases op <;> cases h <;> exact ⟨_, _, rfl, rfl, by decide, by decide⟩

/-- A function does on every stack of enough items what moves do. -/
structure Performs (required : Nat) (change : Stack → Option Stack) (moves : List Move) : Prop where
  /-- It finds its places there. -/
  rearranges : Rearranges required change
  /-- It makes of the stack what the moves make of it. -/
  change_eq : ∀ stack : Stack, required ≤ stack.length →
    change stack = Move.afterAll? moves stack

/-- Copying up to three items performs as many copies of the lowest of them. -/
theorem performs_copy? (index count : Nat) (hCount : count ≤ index + 1) (hFew : count ≤ maxGrowth) :
    Performs (index + 1) (fun stack => stack.copy? (index + 1) count)
      (List.replicate count (.pick index)) :=
  ⟨rearranges_copy? hCount hFew, fun _ hEnough => Stack.copy?_eq_afterAll? hCount hEnough⟩

/-- Bringing up an item performs one move. -/
theorem performs_bringUp (index : Nat) :
    Performs (index + 1)
      (fun stack => do
        let (item, rest) ← stack.remove? index
        return item :: rest) [.roll index] := by
  refine ⟨rearranges_bringUp index, fun stack _ => ?_⟩
  rw [Move.afterAll?_singleton, Move.after?_roll]

/-- An opcode of fixed depth rearranges the stack, and performs its moves by that. -/
theorem exists_change_of_shuffle? (h : shuffle? op = some shuffle) :
    ∃ change, (∀ env, step env op = rearrange shuffle.required change) ∧
      Performs shuffle.required change shuffle.moves := by
  -- The opcodes that copy differ in how far they reach and how many items they copy, and those that
  -- bring up one item in how far they reach. The others have each a way of their own.
  cases op with
  | dup =>
    cases h
    exact ⟨_, fun _ => rfl, performs_copy? 0 1 (by decide) (by decide)⟩
  | «over» =>
    cases h
    exact ⟨_, fun _ => rfl, performs_copy? 1 1 (by decide) (by decide)⟩
  | dup2 =>
    cases h
    exact ⟨_, fun _ => rfl, performs_copy? 1 2 (by decide) (by decide)⟩
  | dup3 =>
    cases h
    exact ⟨_, fun _ => rfl, performs_copy? 2 3 (by decide) (by decide)⟩
  | over2 =>
    cases h
    exact ⟨_, fun _ => rfl, performs_copy? 3 2 (by decide) (by decide)⟩
  | swap =>
    cases h
    exact ⟨_, fun _ => rfl, performs_bringUp 1⟩
  | rot =>
    cases h
    exact ⟨_, fun _ => rfl, performs_bringUp 2⟩
  | swap2 =>
    cases h
    exact ⟨_, fun _ => rfl, rearranges_swap2, fun _ => Stack.swap2_eq_afterAll?⟩
  | rot2 =>
    cases h
    exact ⟨_, fun _ => rfl, rearranges_rot2, fun stack _ => Stack.rot2_eq_afterAll? stack⟩
  | nip =>
    cases h
    exact ⟨_, fun _ => rfl, rearranges_nip, fun stack _ => Stack.nip_eq_afterAll? stack⟩
  | tuck =>
    cases h
    exact ⟨_, fun _ => rfl, rearranges_tuck, fun _ => Stack.tuck_eq_afterAll?⟩
  | _ => cases h

/-- The moves of an opcode of fixed depth are made exactly where the items are there that it asks
for. -/
theorem afterAll?_eq_none_iff (h : shuffle? op = some shuffle) {stack : Stack} :
    Move.afterAll? shuffle.moves stack = none ↔ stack.length < shuffle.required := by
  constructor
  · intro hNone
    by_contra hEnough
    obtain ⟨change, -, hPerforms⟩ := exists_change_of_shuffle? h
    obtain ⟨after, hAfter, -⟩ := hPerforms.rearranges stack (Nat.le_of_not_lt hEnough)
    rw [hPerforms.change_eq stack (Nat.le_of_not_lt hEnough), hNone] at hAfter
    exact absurd hAfter nofun
  · intro hShort
    obtain ⟨first, others, hMoves, hRequired, -⟩ := exists_first_of_shuffle? h
    rw [hRequired] at hShort
    rw [hMoves, Move.afterAll?, Move.after?_of_length_le (Nat.le_of_lt_succ hShort)]
    rfl

end UtxoChain.Machine
