import UtxoChain.Proofs.Machine.Parts

/-!
# Steps that end within limits

A state is within limits if its items are not too large and its two stacks together not too deep
(`State.Fits`). A step is contained if it ends well in a state of which some property holds, or fails
for a reason of the script in a state within limits (`Contained`). Addressing a place that is not
there is no reason of the script, so a contained step has made sure of its places.

Here are the operations that opcodes are made of, as far as they take items off, look at them or judge
them. `Contained.bind` puts them together.
-/

namespace UtxoChain.Machine

/-- The items of both stacks have at most `size` bytes each, and there are at most `depth` of them. -/
structure State.Fits (size depth : Nat) (state : State) : Prop where
  /-- The items of the stack are not too large. -/
  stack_le : ∀ item ∈ state.stack, item.length ≤ size
  /-- The items of the alternative stack are not too large. -/
  alt_le : ∀ item ∈ state.alt, item.length ≤ size
  /-- The two stacks together are not too deep. -/
  depth_le : state.stack.length + state.alt.length ≤ depth

/-- The most items that an opcode adds to the two stacks together. -/
def maxGrowth : Nat := 3

namespace State.Fits

variable {size depth : Nat} {state : State}

/-- A state within limits is within wider ones. -/
theorem mono (h : state.Fits size depth) {deeper : Nat} (hDeeper : depth ≤ deeper) :
    state.Fits size deeper :=
  ⟨h.stack_le, h.alt_le, Nat.le_trans h.depth_le hDeeper⟩

/-- Conditionals and the count of opcodes do not matter. -/
theorem congr (h : state.Fits size depth) {other : State} (hStack : other.stack = state.stack)
    (hAlt : other.alt = state.alt) : other.Fits size depth := by
  refine ⟨?_, ?_, ?_⟩
  · rw [hStack]
    exact h.stack_le
  · rw [hAlt]
    exact h.alt_le
  · rw [hStack, hAlt]
    exact h.depth_le

/-- A stack of items that were there, with no more of them than allowed, is within limits. -/
theorem setStack (h : state.Fits size depth) (growth : Nat) {stack : Stack}
    (hSubset : stack ⊆ state.stack) (hLength : stack.length ≤ state.stack.length + growth) :
    ({ state with stack } : State).Fits size (depth + growth) := by
  refine ⟨?_, h.alt_le, ?_⟩
  · intro item hItem
    exact h.stack_le item (hSubset hItem)
  · have hDepth := h.depth_le
    change stack.length + state.alt.length ≤ depth + growth
    omega

/-- Taking items off keeps the limits. -/
theorem drop (h : state.Fits size depth) {stack : Stack} (hSuffix : stack <:+ state.stack) :
    ({ state with stack } : State).Fits size depth :=
  h.setStack 0 hSuffix.subset hSuffix.length_le

/-- An item that is not too large makes the stack deeper by one. -/
theorem cons (h : state.Fits size depth) {item : Bytes} (hItem : item.length ≤ size) :
    ({ state with stack := item :: state.stack } : State).Fits size (depth + 1) := by
  refine ⟨?_, h.alt_le, ?_⟩
  · intro other hOther
    rcases List.mem_cons.1 hOther with rfl | hOther
    · exact hItem
    · exact h.stack_le other hOther
  · have hDepth := h.depth_le
    change (item :: state.stack).length + state.alt.length ≤ depth + 1
    rw [List.length_cons]
    omega

end State.Fits

/-! ## Places -/

/-- There is an item at every depth below that of the stack. -/
theorem exists_item? {stack : Stack} {index : Nat} (hIndex : index < stack.length) :
    ∃ item, stack.item? index = some item :=
  ⟨stack[index], List.getElem?_eq_getElem hIndex⟩

/-- The item at a depth below that of the stack is taken out, and the others remain. -/
theorem exists_remove? {stack : Stack} {index : Nat} (hIndex : index < stack.length) :
    ∃ item rest, stack.remove? index = some (item, rest) ∧ item ∈ stack ∧ rest ⊆ stack ∧
      rest.length + 1 = stack.length := by
  obtain ⟨item, hItem⟩ := exists_item? hIndex
  refine ⟨item, stack.eraseIdx index, ?_, List.mem_of_getElem? hItem, ?_, ?_⟩
  · rw [Stack.remove?, hItem, Option.map_some]
  · exact (List.eraseIdx_sublist stack index).subset
  · rw [List.length_eraseIdx_of_lt hIndex]
    omega

/-- The upper items are taken off where there are as many. -/
theorem exists_split? {stack : Stack} {count : Nat} (hEnough : count ≤ stack.length) :
    ∃ upper lower, stack.split? count = some (upper, lower) ∧ upper ++ lower = stack ∧
      upper.length = count :=
  ⟨stack.take count, stack.drop count, if_pos hEnough, List.take_append_drop count stack,
    List.length_take_of_le hEnough⟩

/-- Going on to a position that is within 64 bits leads there. -/
theorem forward?_of_lt {position count : Nat} (h : position + count < UInt64.size) :
    forward? position count = some (position + count) :=
  if_pos h

/-- Going back by no more than a position leads to a position. -/
theorem back?_of_le {position count : Nat} (h : count ≤ position) :
    back? position count = some (position - count) :=
  if_pos h

/-- There is a part of an item between any two positions within it that are in order. -/
theorem exists_slice? {bytes : Bytes} {start stop : Nat} (hOrder : start ≤ stop)
    (hWithin : stop ≤ bytes.length) : ∃ part, slice? bytes start stop = some part :=
  ⟨(bytes.take stop).drop start, if_pos ⟨hOrder, hWithin⟩⟩

/-! ## Results -/

/-- A step ended within limits: well, and in a state of which more is known, or with a failure of the
script, in a state that fits. -/
def Contained {α : Type} (size depth : Nat) (post : α → State → Prop) :
    EStateM.Result ScriptFailure State α → Prop
  | .ok value after => post value after
  | .error failure after => failure ≠ .positionFault ∧ after.Fits size depth

section

variable {α β : Type} {size depth : Nat} {state : State}

/-- A step whose parts end within limits does so itself. -/
theorem Contained.bind {mid : α → State → Prop} {post : β → State → Prop} {first : Step α}
    {next : α → Step β} (hFirst : Contained size depth mid (first state))
    (hNext : ∀ value after, mid value after → Contained size depth post (next value after)) :
    Contained size depth post ((first >>= next) state) := by
  change Contained size depth post (EStateM.bind first next state)
  unfold EStateM.bind
  cases hResult : first state with
  | ok value after =>
    rw [hResult] at hFirst
    exact hNext value after hFirst
  | error failure after =>
    rw [hResult] at hFirst
    exact hFirst

/-- A step that ends within limits ends within wider ones, with less known of the state. -/
theorem Contained.mono {post wider : α → State → Prop} {deeper : Nat}
    {result : EStateM.Result ScriptFailure State α} (h : Contained size depth post result)
    (hDepth : depth ≤ deeper) (hPost : ∀ value after, post value after → wider value after) :
    Contained size deeper wider result := by
  cases result with
  | ok value after => exact hPost value after h
  | error failure after => exact ⟨h.1, h.2.mono hDepth⟩

/-- A step that fails for a reason of the script ends within limits. -/
theorem contained_throw {post : α → State → Prop} {failure : ScriptFailure}
    (h : state.Fits size depth) (hFailure : failure ≠ .positionFault) :
    Contained size depth post ((throw failure : Step α) state) :=
  ⟨hFailure, h⟩

/-! ## Taking off and looking at -/

/-- What is taken off the stack is not too large. -/
theorem contained_pop (h : state.Fits size depth) :
    Contained size depth (fun item after => item.length ≤ size ∧ after.Fits size depth)
      (pop state) := by
  obtain ⟨stack, alt, branches, opCount⟩ := state
  cases stack with
  | nil => exact contained_throw h nofun
  | cons top rest => exact ⟨h.stack_le top List.mem_cons_self, h.drop (List.suffix_cons top rest)⟩

/-- Asking for items keeps the state, and then there are as many. -/
theorem contained_require (h : state.Fits size depth) (count : Nat) :
    Contained size depth (fun _ after => state = after ∧ count ≤ state.stack.length)
      (require count state) := by
  change Contained _ _ _ ((if state.stack.length < count then throw .stackUnderflow
    else pure () : Step Unit) state)
  split_ifs with hShort
  · exact contained_throw h nofun
  · exact ⟨rfl, Nat.le_of_not_lt hShort⟩

/-- A value that is there is located, and the state is kept. -/
theorem contained_located {value? : Option α} (hSome : ∃ value, value? = some value) :
    Contained size depth (fun value after => state = after ∧ value? = some value)
      (located value? state) := by
  obtain ⟨value, rfl⟩ := hSome
  exact ⟨rfl, rfl⟩

/-- An item that is looked at is not too large, and the state is kept. -/
theorem contained_peek (h : state.Fits size depth) (index : Nat) :
    Contained size depth (fun item after => item.length ≤ size ∧ after.Fits size depth)
      (peek index state) := by
  refine (contained_require h (index + 1)).bind ?_
  rintro - _ ⟨rfl, hEnough⟩
  refine (contained_located (exists_item? hEnough)).mono (Nat.le_refl _) ?_
  rintro item _ ⟨rfl, hItem⟩
  exact ⟨h.stack_le item (List.mem_of_getElem? hItem), h⟩

end

/-! ## Steps that keep the limits -/

/-- From every state within limits the step ends within the same limits. -/
def Keeps {α : Type} (size : Nat) (step : Step α) : Prop :=
  ∀ (depth : Nat) (state : State), state.Fits size depth →
    Contained size depth (fun _ after => after.Fits size depth) (step state)

section

variable {α β : Type} {size : Nat}

/-- A step keeps the limits if all its parts do. -/
theorem Keeps.bind {first : Step α} {next : α → Step β} (hFirst : Keeps size first)
    (hNext : ∀ value, Keeps size (next value)) : Keeps size (first >>= next) := by
  intro depth state h
  exact (hFirst depth state h).bind fun value after hAfter => hNext value depth after hAfter

/-- A step that only gives a value keeps the limits. -/
theorem keeps_pure (value : α) : Keeps size (pure value) :=
  fun _ _ h => h

/-- A step that fails for a reason of the script keeps the limits. -/
theorem keeps_throw {failure : ScriptFailure} (hFailure : failure ≠ .positionFault) :
    Keeps size (throw failure : Step α) :=
  fun _ _ h => contained_throw h hFailure

/-- Taking an item off keeps the limits. -/
theorem keeps_pop : Keeps size pop :=
  fun _ _ h => (contained_pop h).mono (Nat.le_refl _) fun _ _ hPopped => hPopped.2

/-- Looking at an item keeps the limits. -/
theorem keeps_peek (index : Nat) : Keeps size (peek index) :=
  fun _ _ h => (contained_peek h index).mono (Nat.le_refl _) fun _ _ hPeeked => hPeeked.2

/-- Taking several items off keeps the limits: there must be as many. -/
theorem keeps_popMany (count : Nat) : Keeps size (popMany count) := by
  intro depth state h
  refine (contained_require h count).bind ?_
  rintro - _ ⟨rfl, hEnough⟩
  obtain ⟨upper, lower, hSplit, hParts, -⟩ := exists_split? hEnough
  refine (contained_located ⟨_, hSplit⟩).bind ?_
  rintro _ _ ⟨rfl, hFound⟩
  obtain rfl := Option.some_inj.1 (hSplit.symm.trans hFound)
  exact h.drop ⟨upper, hParts⟩

/-- Reading a number keeps the limits. -/
theorem keeps_readNumber (read : Except NumberFault α) : Keeps size (readNumber read) := by
  cases read with
  | ok number => exact keeps_pure number
  | error fault => exact keeps_throw nofun

/-- Taking a number off keeps the limits. -/
theorem keeps_popNumber : Keeps size popNumber :=
  keeps_pop.bind fun _ => keeps_readNumber _

/-- Taking a position, count or shift off keeps the limits. -/
theorem keeps_popIndex : Keeps size popIndex := by
  refine keeps_popNumber.bind fun number => ?_
  split_ifs
  · exact keeps_throw nofun
  · exact keeps_readNumber _

/-- Taking two numbers off keeps the limits. -/
theorem keeps_popNumbers : Keeps size popNumbers :=
  keeps_popNumber.bind fun _ => keeps_popNumber.bind fun _ => keeps_pure _

/-- Verifying a condition keeps the limits. -/
theorem keeps_verify (op : Opcode) (condition : Bool) : Keeps size (verify op condition) := by
  cases condition with
  | true => exact keeps_pure ()
  | false => exact keeps_throw nofun

/-- A check that fails for its own reasons keeps the limits. -/
theorem keeps_decided {outcome : Except ScriptFailure α}
    (hFailure : ∀ failure, outcome = .error failure → failure.ofCheck = true) :
    Keeps size (decided outcome) := by
  cases outcome with
  | ok value => exact keeps_pure value
  | error failure =>
    refine keeps_throw fun hFault => ?_
    have hOwn := hFailure failure rfl
    rw [hFault] at hOwn
    exact absurd hOwn Bool.false_ne_true

end

/-! ## Signatures and locks -/

section

variable {size : Nat}

/-- Taking a key and a signature off and checking them keeps the limits. -/
theorem keeps_popSignatureCheck (env : Env) : Keeps size (popSignatureCheck env) :=
  keeps_pop.bind fun _ => keeps_pop.bind fun _ => keeps_decided fun _ => ofCheck_of_checkSignature

/-- Taking keys and signatures off, as many as the stack says and holds, and checking them keeps the
limits. -/
theorem keeps_popMultiSignatureCheck (env : Env) : Keeps size (popMultiSignatureCheck env) := by
  refine keeps_popIndex.bind fun keyCount => ?_
  split_ifs
  · exact keeps_throw nofun
  refine (keeps_popMany keyCount).bind fun keys => keeps_popIndex.bind fun signatureCount => ?_
  split_ifs
  · exact keeps_throw nofun
  exact (keeps_popMany signatureCount).bind fun _ => keeps_decided fun _ => ofCheck_of_matchSignatures

/-- Looking at the lock that is demanded keeps the limits. -/
theorem keeps_peekLock : Keeps size peekLock :=
  (keeps_peek 0).bind fun _ => keeps_readNumber _

/-- Comparing locks keeps the limits. -/
theorem keeps_checkLock (required actual : Nat) : Keeps size (checkLock required actual) := by
  unfold checkLock
  split_ifs
  · exact keeps_throw nofun
  · exact keeps_pure ()

/-- Checking the absolute lock keeps the limits. -/
theorem keeps_checkLockAbs (env : Env) : Keeps size (checkLockAbs env) := by
  refine (keeps_decided fun _ => ofCheck_of_contextFor).bind fun context => ?_
  exact keeps_peekLock.bind fun required => keeps_checkLock _ _

/-- Checking the relative lock keeps the limits: an input that is not there is told as such. -/
theorem keeps_checkLockRel (env : Env) : Keeps size (checkLockRel env) := by
  refine (keeps_decided fun _ => ofCheck_of_contextFor).bind fun context => ?_
  refine keeps_peekLock.bind fun required => ?_
  cases context.cache.tx.inputs[context.inputIndex]? with
  | none => exact keeps_throw nofun
  | some input => exact keeps_checkLock _ _

end

end UtxoChain.Machine
