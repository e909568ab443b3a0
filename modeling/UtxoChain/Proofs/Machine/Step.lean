import UtxoChain.Machine.Step
import UtxoChain.Proofs.Script.Reading
import UtxoChain.Proofs.Script.ShortestForm
import UtxoChain.Proofs.Tx.Signing

/-!
# What the opcodes do

For each operation of the machine, the states from which it succeeds and the state that it leaves. The
operations are described by the stack alone; everything else in the state is kept, unless it is named.
-/

namespace UtxoChain.Machine

open Stateful

variable {env : Env} {state after : State}

/-! ## The stack -/

/-- The stack is read and the state kept. -/
theorem getStack_ok_iff {stack : Stack} :
    getStack state = .ok stack after ↔ state.stack = stack ∧ state = after := by
  unfold getStack
  simp only [bind_ok_iff, get_ok_iff, pure_ok_iff]
  constructor
  · rintro ⟨_, _, ⟨rfl, rfl⟩, rfl, rfl⟩
    exact ⟨rfl, rfl⟩
  · rintro ⟨rfl, rfl⟩
    exact ⟨_, _, ⟨rfl, rfl⟩, rfl, rfl⟩

/-- The stack is replaced. -/
theorem setStack_ok_iff {stack : Stack} {done : Unit} :
    setStack stack state = .ok done after ↔ after = { state with stack } := by
  rw [setStack, modify_ok_iff]

/-- There are enough items, and the state is kept. -/
theorem require_ok_iff {count : Nat} {done : Unit} :
    require count state = .ok done after ↔ count ≤ state.stack.length ∧ state = after := by
  unfold require
  simp only [bind_ok_iff, getStack_ok_iff]
  constructor
  · rintro ⟨_, _, ⟨rfl, rfl⟩, h⟩
    split_ifs at h with hShort
    · exact (throw_ok_iff.1 h).elim
    · exact ⟨Nat.le_of_not_lt hShort, (pure_ok_iff.1 h).2⟩
  · rintro ⟨hEnough, rfl⟩
    refine ⟨_, _, ⟨rfl, rfl⟩, ?_⟩
    rw [if_neg (Nat.not_lt.2 hEnough), pure_ok_iff]
    exact ⟨rfl, rfl⟩

/-- Where there are not enough items, the state is kept. -/
theorem require_of_lt {count : Nat} (h : state.stack.length < count) :
    require count state = .error .stackUnderflow state := by
  unfold require
  rw [bind_of_ok (getStack_ok_iff.2 ⟨rfl, rfl⟩), if_pos h]
  rfl

/-- A value is given where there is one, and the state is kept. -/
theorem located_ok_iff {α : Type} {value? : Option α} {value : α} :
    located value? state = .ok value after ↔ value? = some value ∧ state = after := by
  cases value? with
  | none => simp [located, throw_ok_iff]
  | some found => simp [located, pure_ok_iff]

/-- The stack is replaced by what a function makes of it, if there are enough items. -/
theorem rearrange_ok_iff {count : Nat} {change : Stack → Option Stack} {done : Unit} :
    rearrange count change state = .ok done after ↔
      count ≤ state.stack.length ∧
        ∃ stack, change state.stack = some stack ∧ after = { state with stack } := by
  unfold rearrange
  simp only [bind_ok_iff, require_ok_iff, getStack_ok_iff, located_ok_iff, setStack_ok_iff]
  constructor
  · rintro ⟨-, _, ⟨hEnough, rfl⟩, _, _, ⟨rfl, rfl⟩, stack, _, ⟨hChange, rfl⟩, rfl⟩
    exact ⟨hEnough, stack, hChange, rfl⟩
  · rintro ⟨hEnough, stack, hChange, rfl⟩
    exact ⟨(), state, ⟨hEnough, rfl⟩, _, _, ⟨rfl, rfl⟩, stack, state, ⟨hChange, rfl⟩, rfl⟩

/-- The top item is taken off. -/
theorem pop_ok_iff {item : Bytes} :
    pop state = .ok item after ↔
      ∃ rest, state.stack = item :: rest ∧ after = { state with stack := rest } := by
  unfold pop
  simp only [bind_ok_iff, getStack_ok_iff]
  constructor
  · rintro ⟨stack, _, ⟨hStack, rfl⟩, h⟩
    cases stack with
    | nil => exact (throw_ok_iff.1 h).elim
    | cons top rest =>
      simp only [bind_ok_iff, setStack_ok_iff, pure_ok_iff] at h
      obtain ⟨-, _, rfl, rfl, rfl⟩ := h
      exact ⟨rest, hStack, rfl⟩
  · rintro ⟨rest, hStack, rfl⟩
    refine ⟨item :: rest, state, ⟨hStack, rfl⟩, ?_⟩
    simp only [bind_ok_iff, setStack_ok_iff, pure_ok_iff]
    exact ⟨(), _, rfl, trivial, rfl⟩

/-- An item is put on. -/
theorem place_ok_iff {item : Bytes} {done : Unit} :
    place item state = .ok done after ↔ after = { state with stack := item :: state.stack } := by
  unfold place
  simp only [bind_ok_iff, getStack_ok_iff, setStack_ok_iff]
  constructor
  · rintro ⟨_, _, ⟨rfl, rfl⟩, rfl⟩
    rfl
  · rintro rfl
    exact ⟨_, _, ⟨rfl, rfl⟩, rfl⟩

/-- An item that is not too large is put on. -/
theorem push_ok_iff {item : Bytes} {done : Unit} :
    push item state = .ok done after ↔
      item.length ≤ maxElementSize ∧ after = { state with stack := item :: state.stack } := by
  unfold push
  split_ifs with hLarge
  · simp [throw_ok_iff, Nat.not_le.2 hLarge]
  · simp [place_ok_iff, Nat.le_of_not_lt hLarge]

/-- A number that is read is given, and the state is kept. -/
theorem readNumber_ok_iff {α : Type} {read : Except NumberFault α} {number : α} :
    readNumber read state = .ok number after ↔ read = .ok number ∧ state = after := by
  cases read with
  | ok found => simp [readNumber, pure_ok_iff]
  | error fault => simp [readNumber, throw_ok_iff]

/-- The shortest form of a number is put on, if it is not too large. -/
theorem pushNumber_ok_iff {number : Int} {done : Unit} :
    pushNumber number state = .ok done after ↔
      (ScriptNumber.encode number).length ≤ maxElementSize ∧
        after = { state with stack := ScriptNumber.encode number :: state.stack } :=
  push_ok_iff

/-- The item that stands for a truth value is put on. -/
theorem pushBool_ok_iff {b : Bool} {done : Unit} :
    pushBool b state = .ok done after ↔
      after = { state with stack := ScriptNumber.encode (ScriptNumber.ofBool b) :: state.stack } := by
  have hShort : (ScriptNumber.encode (ScriptNumber.ofBool b)).length ≤ maxElementSize := by
    cases b <;> decide
  unfold pushBool
  rw [pushNumber_ok_iff]
  exact and_iff_right hShort

/-! ## Operands -/

/-- The top item is taken off a stack that is written out. -/
theorem pop_cons (item : Bytes) (rest : Stack) :
    pop { state with stack := item :: rest } = .ok item { state with stack := rest } :=
  pop_ok_iff.2 ⟨rest, rfl, rfl⟩

/-- A number that is written in its shortest form is taken off. -/
theorem popNumber_encode (number : Int) (rest : Stack) :
    popNumber { state with stack := ScriptNumber.encode number :: rest } =
      .ok number { state with stack := rest } := by
  unfold popNumber
  rw [bind_of_ok (pop_cons _ rest)]
  exact readNumber_ok_iff.2 ⟨ScriptNumber.decode_encode number, rfl⟩

/-- An item that is the shortest form of no number is taken off and refused. -/
theorem popNumber_of_forall_encode_ne {item : Bytes}
    (h : ∀ number, ScriptNumber.encode number ≠ item) (rest : Stack) :
    popNumber { state with stack := item :: rest } =
      .error (.invalidNumber (.notMinimal item)) { state with stack := rest } := by
  unfold popNumber
  rw [bind_of_ok (pop_cons item rest), ScriptNumber.decode_of_forall_encode_ne h]
  rfl

/-- A position that is written as a number is taken off. -/
theorem popIndex_encode {n : Nat} (hBound : n < WordSize.count.bound) (rest : Stack) :
    popIndex { state with stack := ScriptNumber.encode n :: rest } =
      .ok n { state with stack := rest } := by
  unfold popIndex
  rw [bind_of_ok (popNumber_encode n rest), if_neg (Int.not_lt.2 (Int.natCast_nonneg n))]
  exact readNumber_ok_iff.2 ⟨ScriptNumber.toWord_eq_ok_iff.2 ⟨rfl, hBound⟩, rfl⟩

/-! ## Checks -/

/-- A condition that is verified holds, and the state is kept. -/
theorem verify_ok_iff {op : Opcode} {condition : Bool} {done : Unit} :
    verify op condition state = .ok done after ↔ condition = true ∧ state = after := by
  cases condition with
  | true => simp [verify, pure_ok_iff]
  | false => simp [verify, throw_ok_iff]

/-- The outcome of a check is given, and the state is kept. -/
theorem decided_ok_iff {α : Type} {outcome : Except ScriptFailure α} {value : α} :
    decided outcome state = .ok value after ↔ outcome = .ok value ∧ state = after := by
  cases outcome with
  | ok found => simp [decided, pure_ok_iff]
  | error failure => simp [decided, throw_ok_iff]

/-- An opcode is counted, or the limit is exceeded by it. -/
theorem countOp_eq (env : Env) (state : State) :
    countOp env state =
      if env.maxOps < state.opCount + 1 then
        .error (.opLimitExceeded env.maxOps) { state with opCount := state.opCount + 1 }
      else .ok () { state with opCount := state.opCount + 1 } := by
  change (if env.maxOps < state.opCount + 1 then _ else _ : Step Unit) _ = _
  split_ifs <;> rfl

/-- One more opcode is counted, if the limit allows it. -/
theorem countOp_ok_iff {done : Unit} :
    countOp env state = .ok done after ↔
      state.opCount < env.maxOps ∧ after = { state with opCount := state.opCount + 1 } := by
  rw [countOp_eq]
  split_ifs with hOver
  · exact ⟨fun h => absurd h nofun, fun h => absurd h.1 (Nat.not_lt.2 (Nat.le_of_lt_succ hOver))⟩
  · rw [EStateM.Result.ok.injEq]
    constructor
    · rintro ⟨-, rfl⟩
      exact ⟨Nat.le_of_not_lt hOver, rfl⟩
    · rintro ⟨-, rfl⟩
      exact ⟨rfl, rfl⟩

/-- The stacks are not too deep, and the state is kept. -/
theorem checkDepth_ok_iff {done : Unit} :
    checkDepth state = .ok done after ↔
      state.stack.length + state.alt.length ≤ maxStackDepth ∧ state = after := by
  unfold checkDepth
  simp only [bind_ok_iff, get_ok_iff]
  constructor
  · rintro ⟨_, _, ⟨rfl, rfl⟩, h⟩
    split_ifs at h with hDeep
    · exact (throw_ok_iff.1 h).elim
    · exact ⟨Nat.le_of_not_lt hDeep, (pure_ok_iff.1 h).2⟩
  · rintro ⟨hDepth, rfl⟩
    refine ⟨_, _, ⟨rfl, rfl⟩, ?_⟩
    rw [if_neg (Nat.not_lt.2 hDepth), pure_ok_iff]
    exact ⟨rfl, rfl⟩

/-- The number that the top item demands is a word, and the state is kept. -/
theorem peekLock_ok_iff {required : Nat} :
    peekLock state = .ok required after ↔
      (∃ item rest, state.stack = item :: rest ∧
        (ScriptNumber.decode item >>= ScriptNumber.toWord .word64) = .ok required) ∧
      state = after := by
  unfold peekLock peek
  simp only [bind_ok_iff, require_ok_iff, getStack_ok_iff, located_ok_iff, readNumber_ok_iff]
  constructor
  · rintro ⟨item, _, ⟨-, _, ⟨-, rfl⟩, _, _, ⟨rfl, rfl⟩, hItem, rfl⟩, hRequired, rfl⟩
    rw [Stack.item?, ← List.head?_eq_getElem?, List.head?_eq_some_iff] at hItem
    obtain ⟨rest, hStack⟩ := hItem
    exact ⟨⟨item, rest, hStack, hRequired⟩, rfl⟩
  · rintro ⟨⟨item, rest, hStack, hRequired⟩, rfl⟩
    refine ⟨item, state, ⟨(), state, ⟨?_, rfl⟩, _, state, ⟨rfl, rfl⟩, ?_, rfl⟩, hRequired, rfl⟩
    · simp [hStack]
    · simp [Stack.item?, hStack]

/-- A lock that is reached is not below the one demanded, and the state is kept. -/
theorem checkLock_ok_iff {required actual : Nat} {done : Unit} :
    checkLock required actual state = .ok done after ↔ required ≤ actual ∧ state = after := by
  unfold checkLock
  split_ifs with hBelow
  · simp [throw_ok_iff, Nat.not_le.2 hBelow]
  · simp [pure_ok_iff, Nat.le_of_not_lt hBelow]

/-- A signature check has an outcome exactly for a key of 33 bytes and a signature of 65, in a
transaction that has the input. -/
theorem checkSignature_eq_ok_iff {context : Context} (hContext : env.context = some context)
    {signature key : Bytes} {valid : Bool} :
    checkSignature env signature key = .ok valid ↔
      ∃ (signed : TxSignature) (publicKey : PublicKey) (digest : Hash256),
        signature = signed.toBytes ∧ key = publicKey.toBytes ∧
        context.cache.sighashOf
          ⟨context.inputIndex, env.scriptCode, context.amount, signed.hashType⟩ = .ok digest ∧
        context.scheme.verify digest signed.signature publicKey = valid := by
  have hGiven : env.contextFor .checkSig = .ok context := by
    unfold Env.contextFor
    rw [hContext]
  unfold checkSignature
  rw [hGiven]
  simp only [← TxSignature.ofBytes?_eq_some_iff, ← FixedBytes.ofBytes?_eq_some_iff]
  dsimp only [bind, Except.bind]
  -- The signature, the key and the digest are tried in turn, and each of them may be missing.
  cases TxSignature.ofBytes? signature with
  | none => simp
  | some signed =>
    cases FixedBytes.ofBytes? key with
    | none => simp
    | some publicKey =>
      cases hDigest : context.cache.sighashOf
          ⟨context.inputIndex, env.scriptCode, context.amount, signed.hashType⟩ with
      | error missing => simp [hDigest]
      | ok digest => simp [hDigest]

/-! ## Opcodes -/

/-- The top item is copied. -/
theorem step_dup_ok_iff {done : Unit} :
    step env .dup state = .ok done after ↔
      ∃ top rest, state.stack = top :: rest ∧ after = { state with stack := top :: top :: rest } := by
  change rearrange 1 (fun stack => stack.copy? 1 1) state = .ok done after ↔ _
  rw [rearrange_ok_iff]
  cases hStack : state.stack with
  | nil => simp
  | cons top rest => simp [Stack.copy?, eq_comm]

/-- The top item is replaced by its double hash. -/
theorem step_doubleBlake3_ok_iff {done : Unit} :
    step env .doubleBlake3 state = .ok done after ↔
      ∃ top rest, state.stack = top :: rest ∧
        after = { state with stack := (doubleHash top).toBytes :: rest } := by
  change (pop >>= fun item => place (doubleHash item).toBytes) state = .ok done after ↔ _
  simp only [bind_ok_iff, pop_ok_iff, place_ok_iff]
  constructor
  · rintro ⟨top, _, ⟨rest, hStack, rfl⟩, rfl⟩
    exact ⟨top, rest, hStack, rfl⟩
  · rintro ⟨top, rest, hStack, rfl⟩
    exact ⟨top, _, ⟨rest, hStack, rfl⟩, rfl⟩

/-- Two equal items are taken off. -/
theorem step_equalVerify_ok_iff {done : Unit} :
    step env .equalVerify state = .ok done after ↔
      ∃ item rest, state.stack = item :: item :: rest ∧ after = { state with stack := rest } := by
  change (do
    let b ← pop
    let a ← pop
    verify .equalVerify (a == b)) state = .ok done after ↔ _
  simp only [bind_ok_iff, pop_ok_iff, verify_ok_iff, beq_iff_eq]
  constructor
  · rintro ⟨b, _, ⟨_, hStack, rfl⟩, a, _, ⟨rest, rfl, rfl⟩, rfl, rfl⟩
    exact ⟨a, rest, hStack, rfl⟩
  · rintro ⟨item, rest, hStack, rfl⟩
    exact ⟨item, _, ⟨_, hStack, rfl⟩, item, _, ⟨rest, rfl, rfl⟩, rfl, rfl⟩

/-- Two items are replaced by whether they are equal. -/
theorem step_equal_ok_iff {done : Unit} :
    step env .equal state = .ok done after ↔
      ∃ b a rest, state.stack = b :: a :: rest ∧
        after = { state with
          stack := ScriptNumber.encode (ScriptNumber.ofBool (a == b)) :: rest } := by
  change (do
    let b ← pop
    let a ← pop
    pushBool (a == b)) state = .ok done after ↔ _
  simp only [bind_ok_iff, pop_ok_iff, pushBool_ok_iff]
  constructor
  · rintro ⟨b, _, ⟨_, hStack, rfl⟩, a, _, ⟨rest, rfl, rfl⟩, rfl⟩
    exact ⟨b, a, rest, hStack, rfl⟩
  · rintro ⟨b, a, rest, hStack, rfl⟩
    exact ⟨b, _, ⟨_, hStack, rfl⟩, a, _, ⟨rest, rfl, rfl⟩, rfl⟩

/-- The top item is taken off. -/
theorem step_drop_ok_iff {done : Unit} :
    step env .drop state = .ok done after ↔
      ∃ top rest, state.stack = top :: rest ∧ after = { state with stack := rest } := by
  change (pop >>= fun _ => pure ()) state = .ok done after ↔ _
  simp only [bind_ok_iff, pop_ok_iff, pure_ok_iff]
  constructor
  · rintro ⟨top, _, ⟨rest, hStack, rfl⟩, -, rfl⟩
    exact ⟨top, rest, hStack, rfl⟩
  · rintro ⟨top, rest, hStack, rfl⟩
    exact ⟨top, _, ⟨rest, hStack, rfl⟩, trivial, rfl⟩

/-- The opcode of a number puts that number on. -/
theorem step_of_ofSmallInt? {op : Opcode} {n : Nat} (h : Opcode.ofSmallInt? n = some op) :
    step env op = pushNumber n := by
  have hMem : [Opcode.op0, .op1, .op2, .op3, .op4, .op5, .op6, .op7, .op8, .op9, .op10, .op11, .op12,
      .op13, .op14, .op15, .op16].contains op = true :=
    Opcode.forall_of_ofSmallInt? (p := fun _ op => List.contains _ op) (by decide) h
  have hNumber : (op.smallInt?.getD 0 == n) = true :=
    Opcode.forall_of_ofSmallInt? (p := fun n op => op.smallInt?.getD 0 == n) (by decide) h
  -- The opcode of zero has no number of its own, and pushes the zero that stands in for it.
  rw [← beq_iff_eq.1 hNumber]
  simp only [List.contains_iff_mem, List.mem_cons, List.not_mem_nil, or_false] at hMem
  rcases hMem with rfl | rfl | rfl | rfl | rfl | rfl | rfl | rfl | rfl | rfl | rfl | rfl | rfl | rfl |
    rfl | rfl | rfl <;> rfl

/-- A key and the signature under it are replaced by the outcome of their check. -/
theorem step_checkSig_ok_iff {done : Unit} :
    step env .checkSig state = .ok done after ↔
      ∃ key signature rest valid, state.stack = key :: signature :: rest ∧
        checkSignature env signature key = .ok valid ∧
        after = { state with stack := ScriptNumber.encode (ScriptNumber.ofBool valid) :: rest } := by
  change (popSignatureCheck env >>= pushBool) state = .ok done after ↔ _
  unfold popSignatureCheck
  simp only [bind_ok_iff, pop_ok_iff, decided_ok_iff, pushBool_ok_iff]
  constructor
  · rintro ⟨valid, _, ⟨key, _, ⟨_, hStack, rfl⟩, signature, _, ⟨rest, rfl, rfl⟩, hCheck, rfl⟩, rfl⟩
    exact ⟨key, signature, rest, valid, hStack, hCheck, rfl⟩
  · rintro ⟨key, signature, rest, valid, hStack, hCheck, rfl⟩
    exact ⟨valid, _, ⟨key, _, ⟨_, hStack, rfl⟩, signature, _, ⟨rest, rfl, rfl⟩, hCheck, rfl⟩, rfl⟩

/-- The relative lock of the input reaches the number on top, and the state is kept. -/
theorem step_checkLockRelVerify_ok_iff {context : Context} (hContext : env.context = some context)
    {input : TxIn} (hInput : context.cache.tx.inputs[context.inputIndex]? = some input)
    {done : Unit} :
    step env .checkLockRelVerify state = .ok done after ↔
      ∃ item rest required, state.stack = item :: rest ∧
        (ScriptNumber.decode item >>= ScriptNumber.toWord .word64) = .ok required ∧
        required ≤ input.lockRel.toNat ∧ state = after := by
  change checkLockRel env state = .ok done after ↔ _
  have hGiven : env.contextFor .checkLockRelVerify = .ok context := by
    unfold Env.contextFor
    rw [hContext]
  unfold checkLockRel
  rw [hGiven]
  simp only [bind_ok_iff, decided_ok_iff, peekLock_ok_iff]
  constructor
  · rintro ⟨_, _, ⟨hSame, rfl⟩, required, _, ⟨⟨item, rest, hStack, hRequired⟩, rfl⟩, hCheck⟩
    obtain rfl := Except.ok.inj hSame
    simp only [hInput, checkLock_ok_iff] at hCheck
    exact ⟨item, rest, required, hStack, hRequired, hCheck⟩
  · rintro ⟨item, rest, required, hStack, hRequired, hReached, rfl⟩
    refine ⟨context, state, ⟨rfl, rfl⟩, required, state, ⟨⟨item, rest, hStack, hRequired⟩, rfl⟩, ?_⟩
    simp only [hInput, checkLock_ok_iff]
    exact ⟨hReached, trivial⟩

end UtxoChain.Machine
