import UtxoChain.Proofs.Machine.Contained

/-!
# Opcodes keep within limits

From a state within limits an opcode leads to a state with items of the same size and at most three
items more, or it fails for a reason of the script with no more items than there were (`limited_step`).
What is put on the stack without a look at its size is never longer than an item that was there, or is
a digest. Every place that an opcode addresses is there, and every position that it reckons is one.

The limits are any that allow what may be pushed. They need not be those that the machine enforces, so
every state is within some of them.
-/

namespace UtxoChain.Machine

/-- From every state within limits the step ends with items of the same size, and at most as many more
as an opcode adds. -/
def Limited (size : Nat) (step : Step Unit) : Prop :=
  ∀ (depth : Nat) (state : State), state.Fits size depth →
    Contained size depth (fun _ after => after.Fits size (depth + maxGrowth)) (step state)

section

variable {α : Type} {size : Nat}

/-- A step is limited if it keeps the limits. -/
theorem Keeps.limited {step : Step Unit} (h : Keeps size step) : Limited size step := by
  intro depth state hState
  refine (h depth state hState).mono (Nat.le_refl _) ?_
  intro _ after hAfter
  exact hAfter.mono (Nat.le_add_right _ _)

/-- A step is limited if a part of it keeps the limits and the remainder is limited. -/
theorem Keeps.limited_bind {first : Step α} {next : α → Step Unit} (hFirst : Keeps size first)
    (hNext : ∀ value, Limited size (next value)) : Limited size (first >>= next) := by
  intro depth state h
  exact (hFirst depth state h).bind fun value after hAfter => hNext value depth after hAfter

/-- A step that fails for a reason of the script is limited. -/
theorem limited_throw {failure : ScriptFailure} (hFailure : failure ≠ .positionFault) :
    Limited size (throw failure) :=
  (keeps_throw hFailure).limited

/-- Putting on an item that is not too large is limited. -/
theorem limited_place {item : Bytes} (hItem : item.length ≤ size) : Limited size (place item) := by
  intro depth state h
  have hGrowth : depth + 1 ≤ depth + maxGrowth := Nat.add_le_add_left (by decide) depth
  exact (h.cons hItem).mono hGrowth

/-- A step that takes an item off and goes on with it is limited if what follows is, for items that are
not too large. -/
theorem limited_pop {next : Bytes → Step Unit}
    (hNext : ∀ item, item.length ≤ size → Limited size (next item)) :
    Limited size (pop >>= next) := by
  intro depth state h
  refine (contained_pop h).bind fun item after hPopped => ?_
  exact hNext item hPopped.1 depth after hPopped.2

/-- A step that looks at an item and goes on with it is limited if what follows is, for items that are
not too large. -/
theorem limited_peek {index : Nat} {next : Bytes → Step Unit}
    (hNext : ∀ item, item.length ≤ size → Limited size (next item)) :
    Limited size (peek index >>= next) := by
  intro depth state h
  refine (contained_peek h index).bind fun item after hPeeked => ?_
  exact hNext item hPeeked.1 depth after hPeeked.2

/-! ## Items -/

variable (hSize : maxElementSize ≤ size)

include hSize

/-- Pushing is limited: an item that is too large is refused. -/
theorem limited_push (item : Bytes) : Limited size (push item) := by
  unfold push
  split_ifs with hLarge
  · exact limited_throw nofun
  · exact limited_place (Nat.le_trans (Nat.le_of_not_lt hLarge) hSize)

/-- Pushing a number is limited. -/
theorem limited_pushNumber (number : Int) : Limited size (pushNumber number) :=
  limited_push hSize _

/-- Pushing a truth value is limited. -/
theorem limited_pushBool (b : Bool) : Limited size (pushBool b) :=
  limited_pushNumber hSize _

/-- Replacing a number is limited. -/
theorem limited_onNumber (f : Int → Int) : Limited size (onNumber f) :=
  keeps_popNumber.limited_bind fun _ => limited_pushNumber hSize _

/-- Replacing two numbers is limited. -/
theorem limited_onNumbers (f : Int → Int → Int) : Limited size (onNumbers f) :=
  keeps_popNumbers.limited_bind fun _ => limited_pushNumber hSize _

/-- Replacing two numbers by a truth value is limited. -/
theorem limited_onNumbersBool (f : Int → Int → Bool) : Limited size (onNumbersBool f) :=
  limited_onNumbers hSize _

/-- A division is limited: a zero divisor is refused, and by any other there is a quotient. -/
theorem limited_onDivision {f : Int → Int → Option Int}
    (hDefined : ∀ a b, b ≠ 0 → ∃ c, f a b = some c) : Limited size (onDivision f) := by
  refine keeps_popNumbers.limited_bind ?_
  rintro ⟨a, b⟩
  dsimp only
  split_ifs with hZero
  · exact limited_throw nofun
  · obtain ⟨c, hQuotient⟩ := hDefined a b hZero
    rw [hQuotient]
    exact limited_pushNumber hSize c

/-- Shifting a number is limited. -/
theorem limited_onShift (f : Int → Nat → Int) : Limited size (onShift f) := by
  refine keeps_popIndex.limited_bind fun shift => ?_
  split_ifs
  · exact limited_throw nofun
  · exact keeps_popNumber.limited_bind fun _ => limited_pushNumber hSize _

/-- Joining two items is limited: too large a sum of their sizes is refused. -/
theorem limited_concatenate : Limited size concatenate := by
  refine limited_pop fun b _ => limited_pop fun a _ => ?_
  split_ifs with hLarge
  · exact limited_throw nofun
  · refine limited_place ?_
    rw [List.length_append]
    exact Nat.le_trans (Nat.le_of_not_lt hLarge) hSize

omit hSize

/-- Combining two items byte by byte is limited. -/
theorem limited_onBytes (f : UInt8 → UInt8 → UInt8) : Limited size (onBytes f) := by
  refine limited_pop fun b hB => limited_pop fun a hA => ?_
  split_ifs
  · refine limited_place ?_
    rw [List.length_zipWith]
    exact Nat.le_trans (Nat.min_le_left _ _) hA
  · exact limited_throw nofun

/-- A part of an item is not longer than the item. -/
theorem length_le_of_slice? {bytes part : Bytes} {start stop : Nat}
    (h : slice? bytes start stop = some part) : part.length ≤ bytes.length := by
  unfold slice? at h
  split_ifs at h
  rw [← Option.some_inj.1 h, List.length_drop, List.length_take]
  omega

/-- Putting on a part of an item is limited. -/
theorem limited_placeSlice {bytes : Bytes} (hBytes : bytes.length ≤ size) (start stop : Nat) :
    Limited size (placeSlice (slice? bytes start stop)) := by
  cases hPart : slice? bytes start stop with
  | none => exact limited_throw nofun
  | some part => exact limited_place (Nat.le_trans (length_le_of_slice? hPart) hBytes)

/-- Taking a part out of an item is limited: an end past 64 bits is refused, and any other is a
position, if not one within the item. -/
theorem limited_substring : Limited size substring := by
  refine keeps_popIndex.limited_bind fun length => ?_
  refine keeps_popIndex.limited_bind fun start => ?_
  refine limited_pop fun bytes hBytes => ?_
  split_ifs with hWide
  · exact limited_throw nofun
  · rw [forward?_of_lt (Nat.lt_of_not_le hWide)]
    exact limited_placeSlice hBytes start (start + length)

/-- Taking the front of an item is limited. -/
theorem limited_leftPart : Limited size leftPart := by
  refine keeps_popIndex.limited_bind fun count => ?_
  exact limited_pop fun bytes hBytes => limited_placeSlice hBytes _ _

/-- Taking the back of an item is limited: a count beyond the item is refused, and any other leads back
to a position within it, from which on there is a part. -/
theorem limited_rightPart : Limited size rightPart := by
  refine keeps_popIndex.limited_bind fun count => ?_
  refine limited_pop fun bytes hBytes => ?_
  split_ifs with hShort
  · exact limited_throw nofun
  · have hStart : back? bytes.length count = some (bytes.length - count) :=
      back?_of_le (Nat.le_of_not_lt hShort)
    obtain ⟨part, hPart⟩ := exists_slice? (Nat.sub_le bytes.length count) (Nat.le_refl _)
    rw [hStart]
    change Limited size (located (slice? bytes (bytes.length - count) bytes.length) >>= place)
    rw [hPart]
    exact limited_place (Nat.le_trans (length_le_of_slice? hPart) hBytes)

/-! ## Rearrangements -/

/-- A function that finds its places on every stack of enough items, and makes of it a stack of its own
items that is not much longer. -/
def Rearranges (count : Nat) (change : Stack → Option Stack) : Prop :=
  ∀ stack : Stack, count ≤ stack.length → ∃ result, change stack = some result ∧
    result ⊆ stack ∧ result.length ≤ stack.length + maxGrowth

/-- A rearrangement of the stack is limited. -/
theorem limited_rearrange {count : Nat} {change : Stack → Option Stack}
    (hChange : Rearranges count change) : Limited size (rearrange count change) := by
  intro depth state h
  refine (contained_require h count).bind ?_
  rintro - _ ⟨rfl, hEnough⟩
  obtain ⟨result, hResult, hSubset, hLength⟩ := hChange _ hEnough
  refine (contained_located ⟨result, hResult⟩).bind ?_
  rintro stack _ ⟨rfl, hStack⟩
  obtain rfl : result = stack := Option.some_inj.1 (hResult.symm.trans hStack)
  exact h.setStack maxGrowth hSubset hLength

/-- Copying up to three items onto the stack rearranges it. -/
theorem rearranges_copy? {index count : Nat} (hCount : count ≤ index) (hFew : count ≤ maxGrowth) :
    Rearranges index fun stack => stack.copy? index count := by
  intro stack hEnough
  refine ⟨_, if_pos ⟨hCount, hEnough⟩, ?_, ?_⟩
  · refine List.append_subset.2 ⟨?_, List.Subset.refl _⟩
    exact List.Subset.trans (List.drop_subset _ _) (List.take_subset _ _)
  · rw [List.length_append, List.length_drop, List.length_take_of_le hEnough]
    omega

/-- Dropping two items rearranges the stack. -/
theorem rearranges_drop2 : Rearranges 2 fun stack => (stack.split? 2).map (·.2) := by
  intro stack hEnough
  obtain ⟨upper, lower, hSplit, rfl, -⟩ := exists_split? hEnough
  have hDropped : ((upper ++ lower : Stack).split? 2).map (·.2) = some lower := by
    rw [hSplit, Option.map_some]
  refine ⟨lower, hDropped, List.subset_append_right _ _, ?_⟩
  rw [List.length_append]
  omega

/-- Dropping the second item rearranges the stack. -/
theorem rearranges_nip : Rearranges 2 fun stack => (stack.remove? 1).map (·.2) := by
  intro stack hEnough
  obtain ⟨item, rest, hRemove, -, hRest, hLength⟩ := exists_remove? hEnough
  have hDropped : (stack.remove? 1).map (·.2) = some rest := by rw [hRemove, Option.map_some]
  refine ⟨rest, hDropped, hRest, ?_⟩
  omega

/-- Bringing an item to the top rearranges the stack. -/
theorem rearranges_bringUp (index : Nat) :
    Rearranges (index + 1) fun stack => do
      let (item, stack) ← stack.remove? index
      return item :: stack := by
  intro stack hEnough
  obtain ⟨item, rest, hRemove, hItem, hRest, hLength⟩ := exists_remove? hEnough
  refine ⟨item :: rest, ?_, List.cons_subset.2 ⟨hItem, hRest⟩, ?_⟩
  · dsimp only
    rw [hRemove]
    rfl
  · rw [List.length_cons]
    omega

/-- Bringing the third pair to the top rearranges the stack. -/
theorem rearranges_rot2 :
    Rearranges 6 fun stack => do
      let (first, stack) ← stack.remove? 5
      let (second, stack) ← stack.remove? 4
      return second :: first :: stack := by
  intro stack hEnough
  obtain ⟨first, middle, hFirst, hFirstMem, hMiddle, hLength⟩ := exists_remove? hEnough
  have hFour : 4 < middle.length := by omega
  obtain ⟨second, rest, hSecond, hSecondMem, hRest, hLength'⟩ := exists_remove? hFour
  refine ⟨second :: first :: rest, ?_, ?_, ?_⟩
  · dsimp only
    rw [hFirst, Option.bind_eq_bind, Option.bind_some, hSecond]
    rfl
  · have hAll : rest ⊆ stack := List.Subset.trans hRest hMiddle
    exact List.cons_subset.2 ⟨hMiddle hSecondMem, List.cons_subset.2 ⟨hFirstMem, hAll⟩⟩
  · rw [List.length_cons, List.length_cons]
    omega

/-- Exchanging the upper two pairs rearranges the stack. -/
theorem rearranges_swap2 :
    Rearranges 4 fun stack => do
      let (upper, stack) ← stack.split? 2
      let (lower, stack) ← stack.split? 2
      return lower ++ upper ++ stack := by
  intro stack hEnough
  have hTwo : 2 ≤ stack.length := by omega
  obtain ⟨upper, middle, hUpper, rfl, hUpperLength⟩ := exists_split? hTwo
  have hMiddle : 2 ≤ middle.length := by
    rw [List.length_append] at hEnough
    omega
  obtain ⟨lower, rest, hLower, rfl, -⟩ := exists_split? hMiddle
  refine ⟨lower ++ upper ++ rest, ?_, ?_, ?_⟩
  · dsimp only
    rw [hUpper, Option.bind_eq_bind, Option.bind_some, hLower]
    rfl
  · intro item hItem
    simp only [List.mem_append] at hItem ⊢
    tauto
  · simp only [List.length_append]
    omega

/-- Copying the top item below the second rearranges the stack. -/
theorem rearranges_tuck :
    Rearranges 2 (fun stack => do
      let top ← stack.item? 0
      stack.insert? 2 top) := by
  intro stack hEnough
  have hOne : 0 < stack.length := by omega
  obtain ⟨top, hTop⟩ := exists_item? hOne
  refine ⟨stack.insertIdx 2 top, ?_, ?_, ?_⟩
  · dsimp only
    rw [hTop, Option.bind_eq_bind, Option.bind_some, Stack.insert?, if_pos hEnough]
  · intro item hItem
    rcases (List.mem_insertIdx hEnough).1 hItem with rfl | hItem
    · exact List.mem_of_getElem? hTop
    · exact hItem
  · have hGrowth : 1 ≤ maxGrowth := by decide
    rw [List.length_insertIdx_of_le_length hEnough]
    omega

/-! ## All opcodes -/

/-- A step that looks at the whole stack ends as what follows does for that stack. -/
theorem contained_getStack {size depth : Nat} {state : State} {next : Stack → Step Unit}
    {post : Unit → State → Prop} (h : Contained size depth post (next state.stack state)) :
    Contained size depth post ((getStack >>= next) state) :=
  h

/-- A depth is taken off that is below that of the stack. -/
theorem contained_popDepth {depth : Nat} {state : State} (h : state.Fits size depth) :
    Contained size depth
      (fun index after => index < after.stack.length ∧ after.Fits size depth) (popDepth state) := by
  refine (keeps_popIndex depth state h).bind fun index after hAfter => ?_
  refine (contained_require hAfter (index + 1)).bind ?_
  rintro - _ ⟨rfl, hEnough⟩
  exact ⟨hEnough, hAfter⟩

/-- Copying an item to the top from a depth that the stack names is limited. -/
theorem limited_pick (env : Env) : Limited size (step env .pick) := by
  intro depth state h
  refine (contained_popDepth h).bind ?_
  rintro index after ⟨hIndex, hAfter⟩
  refine contained_getStack ((contained_located (exists_item? hIndex)).bind ?_)
  rintro item _ ⟨rfl, hItem⟩
  exact limited_place (hAfter.stack_le item (List.mem_of_getElem? hItem)) depth _ hAfter

/-- Moving an item to the top from a depth that the stack names is limited. -/
theorem limited_roll (env : Env) : Limited size (step env .roll) := by
  intro depth state h
  refine (contained_popDepth h).bind ?_
  rintro index after ⟨hIndex, hAfter⟩
  obtain ⟨item, rest, hRemove, hItem, hRest, hLength⟩ := exists_remove? hIndex
  refine contained_getStack ((contained_located ⟨_, hRemove⟩).bind ?_)
  rintro _ _ ⟨rfl, hFound⟩
  obtain rfl := Option.some_inj.1 (hRemove.symm.trans hFound)
  refine hAfter.setStack maxGrowth (List.cons_subset.2 ⟨hItem, hRest⟩) ?_
  rw [List.length_cons]
  omega

/-- Moving an item to the alternative stack is limited. -/
theorem limited_toAltStack (env : Env) : Limited size (step env .toAltStack) := by
  refine limited_pop fun item hItem depth state h => ?_
  refine ⟨h.stack_le, ?_, ?_⟩
  · intro other hOther
    rcases List.mem_cons.1 hOther with rfl | hOther
    · exact hItem
    · exact h.alt_le other hOther
  · have hDepth := h.depth_le
    have hGrowth : 1 ≤ maxGrowth := by decide
    change state.stack.length + (item :: state.alt).length ≤ depth + maxGrowth
    rw [List.length_cons]
    omega

/-- Moving an item back from the alternative stack is limited. -/
theorem limited_fromAltStack (env : Env) : Limited size (step env .fromAltStack) := by
  intro depth state h
  obtain ⟨stack, alt, branches, opCount⟩ := state
  cases alt with
  | nil => exact contained_throw h nofun
  | cons item alt =>
    have hItem : item.length ≤ size := h.alt_le item List.mem_cons_self
    have hRest : (⟨stack, alt, branches, opCount⟩ : State).Fits size depth := by
      refine ⟨h.stack_le, fun other hOther => h.alt_le other (List.mem_cons_of_mem _ hOther), ?_⟩
      have hDepth := h.depth_le
      change stack.length + (item :: alt).length ≤ depth at hDepth
      change stack.length + alt.length ≤ depth
      rw [List.length_cons] at hDepth
      omega
    exact limited_place hItem depth _ hRest

/-- By a divisor that is not zero there is a quotient. -/
theorem exists_quotient? (a b : Int) (hDivisor : b ≠ 0) : ∃ c, quotient? a b = some c :=
  ⟨_, if_neg hDivisor⟩

/-- By a divisor that is not zero there is a remainder. -/
theorem exists_remainder? (a b : Int) (hDivisor : b ≠ 0) : ∃ c, remainder? a b = some c :=
  ⟨_, if_neg hDivisor⟩

/-- A digest is not too large for an item. -/
theorem length_digest_le (hSize : maxElementSize ≤ size) (digest : Hash256) :
    digest.toBytes.length ≤ size := by
  rw [digest.length_toBytes]
  exact Nat.le_trans (by decide) hSize

/-- Every opcode is limited. -/
theorem limited_step (hSize : maxElementSize ≤ size) (env : Env) (op : Opcode) :
    Limited size (step env op) := by
  cases op with
  -- Constants and pushes
  | op0 | negate1 | op1 | op2 | op3 | op4 | op5 | op6 | op7 | op8 | op9 | op10 | op11 | op12
  | op13 | op14 | op15 | op16 => exact limited_pushNumber hSize _
  | pushData1 | pushData2 | pushData4 => exact limited_throw nofun
  -- Control
  | verify => exact (keeps_pop.bind fun _ => keeps_verify _ _).limited
  | ifOp | notIfOp | elseOp | endIfOp | returnOp => exact (keeps_pure ()).limited
  | toAltStack => exact limited_toAltStack env
  | fromAltStack => exact limited_fromAltStack env
  -- Stack
  | drop2 => exact limited_rearrange rearranges_drop2
  | dup | dup2 | dup3 | «over» | over2 =>
    exact limited_rearrange (rearranges_copy? (by decide) (by decide))
  | rot2 => exact limited_rearrange rearranges_rot2
  | swap2 => exact limited_rearrange rearranges_swap2
  | ifDup =>
    refine limited_peek fun top hTop => ?_
    split_ifs
    · exact limited_place hTop
    · exact (keeps_pure ()).limited
  | depth => exact fun _ _ h => contained_getStack (limited_pushNumber hSize _ _ _ h)
  | drop => exact (keeps_pop.bind fun _ => keeps_pure ()).limited
  | nip => exact limited_rearrange rearranges_nip
  | pick => exact limited_pick env
  | roll => exact limited_roll env
  | rot => exact limited_rearrange (rearranges_bringUp 2)
  | swap => exact limited_rearrange (rearranges_bringUp 1)
  | tuck => exact limited_rearrange rearranges_tuck
  -- Splice
  | cat => exact limited_concatenate hSize
  | substr => exact limited_substring
  | left => exact limited_leftPart
  | right => exact limited_rightPart
  | size => exact (keeps_peek 0).limited_bind fun _ => limited_pushNumber hSize _
  -- Bitwise and equality
  | invert =>
    refine limited_pop fun item hItem => limited_place ?_
    rw [List.length_map]
    exact hItem
  | bitAnd | bitOr | bitXor => exact limited_onBytes _
  | equal =>
    refine keeps_pop.limited_bind fun _ => ?_
    exact keeps_pop.limited_bind fun _ => limited_pushBool hSize _
  | equalVerify =>
    exact (keeps_pop.bind fun _ => keeps_pop.bind fun _ => keeps_verify _ _).limited
  -- Arithmetic
  | add1 | sub1 | mul2 | div2 | negate | abs | notOp | notEqual0 =>
    exact limited_onNumber hSize _
  | add | sub | mul => exact limited_onNumbers hSize _
  | min | max =>
    rw [step]
    exact limited_onNumbers hSize _
  | boolAnd | boolOr | numEqual | numNotEqual | lessThan | greaterThan | lessThanOrEqual
  | greaterThanOrEqual => exact limited_onNumbersBool hSize _
  | div => exact limited_onDivision hSize exists_quotient?
  | mod => exact limited_onDivision hSize exists_remainder?
  | shiftLeft | shiftRight => exact limited_onShift hSize _
  | numEqualVerify => exact (keeps_popNumbers.bind fun _ => keeps_verify _ _).limited
  | within =>
    refine keeps_popNumber.limited_bind fun _ => ?_
    refine keeps_popNumber.limited_bind fun _ => ?_
    exact keeps_popNumber.limited_bind fun _ => limited_pushBool hSize _
  -- Digests
  | blake3 | doubleBlake3 =>
    exact keeps_pop.limited_bind fun _ => limited_place (length_digest_le hSize _)
  -- Signatures and locks
  | checkSig =>
    exact (keeps_popSignatureCheck env).limited_bind fun _ => limited_pushBool hSize _
  | checkSigVerify =>
    exact ((keeps_popSignatureCheck env).bind fun _ => keeps_verify _ _).limited
  | checkMultiSig =>
    exact (keeps_popMultiSignatureCheck env).limited_bind fun _ => limited_pushBool hSize _
  | checkMultiSigVerify =>
    exact ((keeps_popMultiSignatureCheck env).bind fun _ => keeps_verify _ _).limited
  | checkLockAbsVerify => exact (keeps_checkLockAbs env).limited
  | checkLockRelVerify => exact (keeps_checkLockRel env).limited

end

end UtxoChain.Machine
