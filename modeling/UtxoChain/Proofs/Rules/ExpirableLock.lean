import UtxoChain.Proofs.Rules.KeyLock
import UtxoChain.Proofs.Script.Number

/-!
# Outputs that expire

The script of such an output compares the double hash of the item on top with the hash that it holds,
and takes one of two branches. The owner of a key of that hash signs; anyone else waits until the
relative lock has passed. `Tx.verifyInput_iff_opensExpirable` says that these two ways are the only
ones to spend the output, that both work whatever form the lock is pushed in, and that a key of the
hash never leads to the second.
-/

namespace UtxoChain

open Machine

namespace Script

/-- The chunk of a relative lock pushes the shortest form of the lock, or is the opcode of its
number. -/
theorem payload_or_op_of_pushedLock? {chunk : Chunk} {lock : UInt32}
    (h : pushedLock? chunk = some lock) :
    chunk.payload = some (ScriptNumber.encode lock.toNat) ∨
      ∃ op, chunk = .ofOpcode op ∧ Opcode.ofSmallInt? lock.toNat = some op := by
  obtain ⟨opcode, payload⟩ := chunk
  cases payload with
  | some data =>
    left
    simp only [pushedLock?] at h
    cases hNumber : ScriptNumber.decode data >>= ScriptNumber.toWord .word32 with
    | error fault => simp [hNumber] at h
    | ok n =>
      obtain ⟨number, hDecode, hWord⟩ := bind_eq_ok_iff.1 hNumber
      obtain ⟨rfl, hLess⟩ := ScriptNumber.toWord_eq_ok_iff.1 hWord
      have hLock : UInt32.ofNat n = lock := by
        simpa [hNumber] using h
      have hSame : lock.toNat = n := by
        rw [← hLock, UInt32.toNat_ofNat_of_lt' hLess]
      rw [hSame, ScriptNumber.encode_of_decode hDecode]
  | none =>
    right
    cases hOp : Opcode.ofByte? opcode with
    | none => simp [pushedLock?, Chunk.op?, hOp] at h
    | some op =>
      obtain rfl := Opcode.toByte_of_ofByte? hOp
      refine ⟨op, rfl, ?_⟩
      cases hSmall : op.smallInt? with
      | none =>
        obtain ⟨rfl, rfl⟩ : op = .op0 ∧ 0 = lock := by
          simpa [pushedLock?, Chunk.op?, hOp, hSmall] using h
        rfl
      | some n =>
        have hNumber := Opcode.ofSmallInt?_of_smallInt? hSmall
        have hLess : n < UInt32.size :=
          Nat.lt_of_le_of_lt (Opcode.le_of_ofSmallInt? hNumber) (by decide)
        have hLock : UInt32.ofNat n = lock := by
          simpa [pushedLock?, Chunk.op?, hOp, hSmall] using h
        rw [← hLock, UInt32.toNat_ofNat_of_lt' hLess]
        exact hNumber

/-- A script of an output that expires has the twelve chunks of the template. -/
theorem Admissible.exists_chunks_of_expirableParts? {script : Script} {hash : Hash256} {lock : UInt32}
    (hAdmissible : script.Admissible) (h : script.expirableParts? = some (hash, lock)) :
    ∃ push lockChunk, script.chunks = [.ofOpcode .dup, .ofOpcode .doubleBlake3, push,
        .ofOpcode .equal, .ofOpcode .ifOp, .ofOpcode .checkSig, .ofOpcode .elseOp, lockChunk,
        .ofOpcode .checkLockRelVerify, .ofOpcode .drop, .ofOpcode .op1, .ofOpcode .endIfOp] ∧
      push.payload = some hash.toBytes ∧ pushedLock? lockChunk = some lock := by
  unfold expirableParts? at h
  split at h
  · rename_i dup digest push equal ifChunk check elseChunk lockChunk lockVerify drop one endIf hChunks
    split_ifs at h with hOps
    have hSame : [dup, digest, equal, ifChunk, check, elseChunk, lockVerify, drop, one, endIf] =
        [Opcode.dup, .doubleBlake3, .equal, .ifOp, .checkSig, .elseOp, .checkLockRelVerify, .drop,
          .op1, .endIfOp].map .ofOpcode :=
      hAdmissible.eq_map_ofOpcode (by simp [hChunks]) hOps (by decide)
    simp only [List.map_cons, List.map_nil, List.cons.injEq, and_true] at hSame
    obtain ⟨rfl, rfl, rfl, rfl, rfl, rfl, rfl, rfl, rfl, rfl⟩ := hSame
    obtain ⟨_, hHash, hRest⟩ := Option.bind_eq_some_iff.1 h
    obtain ⟨_, hLock, hParts⟩ := Option.bind_eq_some_iff.1 hRest
    obtain ⟨rfl, rfl⟩ := Prod.mk.inj (Option.some.inj hParts)
    exact ⟨push, lockChunk, hChunks, payload_of_pushedHash? hHash, hLock⟩
  · exact absurd h (by simp)

/-- The chunks of an output that expires from its first branch on: that of the owner, that of anyone
once the lock has passed, and the end of the conditional. -/
def spendingPaths (lockChunk : Chunk) : List Chunk :=
  [.ofOpcode .checkSig, .ofOpcode .elseOp, lockChunk, .ofOpcode .checkLockRelVerify, .ofOpcode .drop,
    .ofOpcode .op1, .ofOpcode .endIfOp]

end Script

namespace Machine

variable {env : Env} {after : State} {hash : Hash256} {lock : UInt32} {push lockChunk : Chunk}

/-- The chunks that begin an output that expires run on a stack that has an item, and room for two
more. They open the branch of the owner exactly if the item has the hash, and leave the stack. -/
theorem runChunks_expirable_ok_iff {stack : Stack} {rest : List Chunk}
    (hPush : push.payload = some hash.toBytes) (hOps : 4 ≤ env.maxOps) :
    runChunks env (.ofOpcode .dup :: .ofOpcode .doubleBlake3 :: push :: .ofOpcode .equal ::
        .ofOpcode .ifOp :: rest) (State.start stack) = .ok () after ↔
      stack.length ≤ 998 ∧ ∃ top below, stack = top :: below ∧
        runChunks env rest ⟨top :: below, [], [decide (doubleHash top = hash)], 4⟩ =
          .ok () after := by
  rw [runChunks_hashTop_ok_iff hPush (by omega)]
  refine and_congr_right fun hDepth => exists_congr fun top => exists_congr fun below =>
    and_congr_right ?_
  rintro rfl
  have hRoom : below.length + 2 ≤ maxStackDepth := by
    simp only [List.length_cons, maxStackDepth] at hDepth ⊢
    omega
  -- The conditional reads the truth value that the comparison left.
  have hBranch : ScriptNumber.isTrue (ScriptNumber.encode (ScriptNumber.ofBool
      ((doubleHash top).toBytes == hash.toBytes))) = decide (doubleHash top = hash) := by
    rw [isTrue_encode_ofBool, Bool.eq_iff_iff, beq_iff_eq, decide_eq_true_iff, FixedBytes.toBytes_inj]
  rw [runChunks_ofOpcode_of_step (step_equal_ok_iff.2 ⟨_, _, _, rfl, rfl⟩) rfl (by decide) rfl
      (Nat.lt_of_lt_of_le (by decide : 2 < 4) hOps),
    runChunks_conditional_of_step rfl (stepConditional_ifOp_ok_iff.2 ⟨_, _, rfl, rfl⟩)
      (Nat.lt_of_lt_of_le (by decide : 3 < 4) hOps), hBranch]
  exact and_iff_right hRoom

/-- In a skipped branch the chunk of a lock is passed over. -/
theorem runChunks_skip_lock {state : State} {rest : List Chunk}
    (hLock : Script.pushedLock? lockChunk = some lock) (hSkipped : state.executing = false) :
    runChunks env (lockChunk :: rest) state = runChunks env rest state := by
  refine runChunks_skip hSkipped fun hPayload op hOp => ?_
  rcases Script.payload_or_op_of_pushedLock? hLock with hData | ⟨_, rfl, hNumber⟩
  · exact absurd (hPayload.symm.trans hData) (by simp)
  · obtain rfl : _ = op := Option.some.inj ((Opcode.ofByte?_toByte _).symm.trans hOp)
    exact Opcode.isConditional_of_ofSmallInt? hNumber

/-- The chunk of a lock pushes the shortest form of the lock, and is counted or not. -/
theorem exists_runChunks_lock_iff (env : Env) (hLock : Script.pushedLock? lockChunk = some lock) :
    ∃ cost ≤ 1, ∀ (state after : State) (rest : List Chunk), state.executing = true →
      state.opCount < env.maxOps → state.stack.length + 1 + state.alt.length ≤ maxStackDepth →
      (runChunks env (lockChunk :: rest) state = .ok () after ↔
        runChunks env rest { state with
          stack := ScriptNumber.encode lock.toNat :: state.stack,
          opCount := state.opCount + cost } = .ok () after) := by
  have hWidth : ScriptNumber.width lock.toNat ≤ 5 :=
    ScriptNumber.width_le_of_lt (by decide) (Nat.lt_trans lock.toNat_lt (by decide))
  have hShort : (ScriptNumber.encode lock.toNat).length ≤ maxElementSize := by
    rw [ScriptNumber.length_encode_natCast]
    exact Nat.le_trans hWidth (by decide)
  -- A payload is pushed uncounted, and an opcode is counted.
  rcases Script.payload_or_op_of_pushedLock? hLock with hData | ⟨op, rfl, hNumber⟩
  · refine ⟨0, Nat.zero_le 1, fun state after rest hExecuting _ hDepth => ?_⟩
    rw [runChunks_push_ok_iff hData hExecuting]
    simp only [hShort, hDepth, true_and, Nat.add_zero]
  · refine ⟨1, Nat.le_refl 1, fun state after rest hExecuting hCount hDepth => ?_⟩
    have hStep : step env op { state with opCount := state.opCount + 1 } = .ok () { state with
        stack := ScriptNumber.encode lock.toNat :: state.stack,
        opCount := state.opCount + 1 } := by
      rw [step_of_ofSmallInt? hNumber, pushNumber_ok_iff]
      exact ⟨hShort, rfl⟩
    rw [runChunks_ofOpcode_of_step hStep (Opcode.isConditional_of_ofSmallInt? hNumber)
      (Opcode.ne_returnOp_of_ofSmallInt? hNumber) hExecuting hCount]
    exact and_iff_right hDepth

/-- The branch of the owner runs to its end exactly if a signature stands below the key and is
checked. It leaves the outcome of the check. -/
theorem runChunks_owner_ok_iff {top : Bytes} {below : Stack}
    (hLock : Script.pushedLock? lockChunk = some lock) (hDepth : below.length + 1 ≤ maxStackDepth)
    (hOps : 7 ≤ env.maxOps) :
    runChunks env (Script.spendingPaths lockChunk) ⟨top :: below, [], [true], 4⟩ = .ok () after ↔
      ∃ signature rest valid, below = signature :: rest ∧
        checkSignature env signature top = .ok valid ∧
        after = ⟨ScriptNumber.encode (ScriptNumber.ofBool valid) :: rest, [], [], 7⟩ := by
  have hCount : ∀ count, count < 7 → count < env.maxOps := fun _ h => Nat.lt_of_lt_of_le h hOps
  -- After the check everything up to the end of the conditional is passed over.
  have hOther : ∀ {stack : Stack}, runChunks env [.ofOpcode .elseOp, lockChunk,
        .ofOpcode .checkLockRelVerify, .ofOpcode .drop, .ofOpcode .op1, .ofOpcode .endIfOp]
        ⟨stack, [], [true], 5⟩ = .ok () after ↔ after = ⟨stack, [], [], 7⟩ := by
    intro stack
    rw [runChunks_conditional_of_step rfl (stepConditional_elseOp rfl) (hCount 5 (by decide)),
      runChunks_skip_lock hLock rfl, runChunks_skip_ofOpcode rfl rfl, runChunks_skip_ofOpcode rfl rfl,
      runChunks_skip_ofOpcode rfl rfl,
      runChunks_conditional_of_step rfl (stepConditional_endIfOp rfl) (hCount 6 (by decide))]
    exact runChunks_nil_ok_iff
  unfold Script.spendingPaths
  rw [runChunks_ofOpcode_ok_iff rfl (by decide) rfl]
  constructor
  · rintro ⟨-, middle, hStep, -, hRest⟩
    obtain ⟨_, signature, rest, valid, hStack, hCheck, hMiddle⟩ := step_checkSig_ok_iff.1 hStep
    obtain ⟨rfl, rfl⟩ := List.cons.inj hStack
    obtain rfl : middle =
        ⟨ScriptNumber.encode (ScriptNumber.ofBool valid) :: rest, [], [true], 5⟩ := hMiddle
    exact ⟨signature, rest, valid, rfl, hCheck, hOther.1 hRest⟩
  · rintro ⟨signature, rest, valid, rfl, hCheck, hAfter⟩
    have hRoom : rest.length + 1 ≤ maxStackDepth := by
      rw [List.length_cons] at hDepth
      omega
    exact ⟨hCount 4 (by decide), _, step_checkSig_ok_iff.2 ⟨_, _, _, valid, rfl, hCheck, rfl⟩,
      hRoom, hOther.2 hAfter⟩

/-- Once the lock is pushed, the branch of anyone runs to its end exactly if the relative lock of the
input reaches it. It leaves a true item in its place. -/
theorem runChunks_lockReached_ok_iff {context : Context} (hContext : env.context = some context)
    {input : TxIn} (hInput : context.cache.tx.inputs[context.inputIndex]? = some input)
    {stack : Stack} (hDepth : stack.length + 1 ≤ maxStackDepth) {count : Nat}
    (hOps : count + 4 ≤ env.maxOps) :
    runChunks env [.ofOpcode .checkLockRelVerify, .ofOpcode .drop, .ofOpcode .op1,
        .ofOpcode .endIfOp] ⟨ScriptNumber.encode lock.toNat :: stack, [], [true], count⟩ =
          .ok () after ↔
      lock ≤ input.lockRel ∧ after = ⟨ScriptNumber.encode 1 :: stack, [], [], count + 4⟩ := by
  have hRequired : (ScriptNumber.decode (ScriptNumber.encode lock.toNat) >>=
      ScriptNumber.toWord .word64) = .ok lock.toNat := by
    have hLess : lock.toNat < WordSize.word64.bound := Nat.lt_trans lock.toNat_lt (by decide)
    exact bind_eq_ok_iff.2 ⟨_, ScriptNumber.decode_encode_natCast _,
      ScriptNumber.toWord_eq_ok_iff.2 ⟨rfl, hLess⟩⟩
  have hOne : step env .op1 ⟨stack, [], [true], count + 3⟩ =
      .ok () ⟨ScriptNumber.encode 1 :: stack, [], [true], count + 3⟩ := by
    have hNumber : Opcode.ofSmallInt? 1 = some .op1 := rfl
    rw [step_of_ofSmallInt? hNumber, pushNumber_ok_iff]
    exact ⟨by decide, rfl⟩
  -- The lock is dropped, and the item of the opcode after it stays.
  have hRest : runChunks env [.ofOpcode .drop, .ofOpcode .op1, .ofOpcode .endIfOp]
        ⟨ScriptNumber.encode lock.toNat :: stack, [], [true], count + 1⟩ = .ok () after ↔
      after = ⟨ScriptNumber.encode 1 :: stack, [], [], count + 4⟩ := by
    have hFewer : stack.length ≤ maxStackDepth := Nat.le_of_succ_le hDepth
    calc runChunks env [.ofOpcode .drop, .ofOpcode .op1, .ofOpcode .endIfOp]
          ⟨ScriptNumber.encode lock.toNat :: stack, [], [true], count + 1⟩ = .ok () after
      _ ↔ runChunks env [.ofOpcode .op1, .ofOpcode .endIfOp] ⟨stack, [], [true], count + 2⟩ =
            .ok () after :=
          (runChunks_ofOpcode_of_step (step_drop_ok_iff.2 ⟨_, stack, rfl, rfl⟩) rfl (by decide) rfl
            (show count + 1 < env.maxOps by omega)).trans (and_iff_right hFewer)
      _ ↔ runChunks env [.ofOpcode .endIfOp]
            ⟨ScriptNumber.encode 1 :: stack, [], [true], count + 3⟩ = .ok () after :=
          (runChunks_ofOpcode_of_step hOne rfl (by decide) rfl
            (show count + 2 < env.maxOps by omega)).trans (and_iff_right hDepth)
      _ ↔ runChunks env [] ⟨ScriptNumber.encode 1 :: stack, [], [], count + 4⟩ = .ok () after :=
          runChunks_conditional_of_step rfl (stepConditional_endIfOp rfl)
            (show count + 3 < env.maxOps by omega)
      _ ↔ after = ⟨ScriptNumber.encode 1 :: stack, [], [], count + 4⟩ :=
          runChunks_nil_ok_iff
  rw [runChunks_ofOpcode_ok_iff rfl (by decide) rfl]
  simp only [step_checkLockRelVerify_ok_iff hContext hInput]
  constructor
  · rintro ⟨-, middle, ⟨item, _, required, hItem, hNumber, hReached, rfl⟩, -, hRun⟩
    obtain ⟨rfl, -⟩ := List.cons.inj hItem
    obtain rfl := Except.ok.inj (hRequired.symm.trans hNumber)
    exact ⟨hReached, hRest.1 hRun⟩
  · rintro ⟨hReached, hAfter⟩
    have hCount : count < env.maxOps := by omega
    exact ⟨hCount, _, ⟨_, _, _, rfl, hRequired, hReached, rfl⟩, hDepth, hRest.2 hAfter⟩

/-- The branch of anyone runs to its end exactly if the relative lock of the input reaches that of the
output. It leaves a true item on the stack. -/
theorem exists_runChunks_expired_iff (env : Env) {context : Context}
    (hContext : env.context = some context) {input : TxIn}
    (hInput : context.cache.tx.inputs[context.inputIndex]? = some input)
    (hLock : Script.pushedLock? lockChunk = some lock) {stack : Stack}
    (hDepth : stack.length + 1 ≤ maxStackDepth) (hOps : 10 ≤ env.maxOps) :
    ∃ count, ∀ after,
      runChunks env (Script.spendingPaths lockChunk) ⟨stack, [], [false], 4⟩ = .ok () after ↔
        lock ≤ input.lockRel ∧ after = ⟨ScriptNumber.encode 1 :: stack, [], [], count⟩ := by
  obtain ⟨cost, hCost, hPushed⟩ := exists_runChunks_lock_iff env hLock
  -- The branch of the owner is passed over, and the conditional turns to the other.
  refine ⟨5 + cost + 4, fun after => ?_⟩
  calc runChunks env (Script.spendingPaths lockChunk) ⟨stack, [], [false], 4⟩ = .ok () after
    _ ↔ runChunks env [lockChunk, .ofOpcode .checkLockRelVerify, .ofOpcode .drop, .ofOpcode .op1,
          .ofOpcode .endIfOp] ⟨stack, [], [true], 5⟩ = .ok () after := by
        rw [Script.spendingPaths, runChunks_skip_ofOpcode rfl rfl,
          runChunks_conditional_of_step rfl (stepConditional_elseOp rfl)
            (show 4 < env.maxOps by omega)]
        rfl
    _ ↔ runChunks env [.ofOpcode .checkLockRelVerify, .ofOpcode .drop, .ofOpcode .op1,
          .ofOpcode .endIfOp] ⟨ScriptNumber.encode lock.toNat :: stack, [], [true], 5 + cost⟩ =
          .ok () after :=
        hPushed ⟨stack, [], [true], 5⟩ after _ rfl (show 5 < env.maxOps by omega) hDepth
    _ ↔ lock ≤ input.lockRel ∧ after = ⟨ScriptNumber.encode 1 :: stack, [], [], 5 + cost + 4⟩ :=
        runChunks_lockReached_ok_iff hContext hInput hDepth (by omega)

section Verdict

variable {context : Option Context} {script : Script} {maxOps : Nat}

/-- A script of an output that expires succeeds exactly if the stack has an item, and room for two
more, and the branch that the item opens leaves a true item. -/
theorem exists_evaluate_expirable_iff {stack : Stack} (hAdmissible : script.Admissible)
    (hParts : script.expirableParts? = some (hash, lock)) (hOps : 4 ≤ maxOps) :
    ∃ lockChunk, Script.pushedLock? lockChunk = some lock ∧
      ((evaluate script stack context maxOps).failure = none ↔
        stack.length ≤ 998 ∧ ∃ top below, stack = top :: below ∧ ∃ final,
          runChunks ⟨script.encode, context, maxOps⟩ (Script.spendingPaths lockChunk)
            ⟨top :: below, [], [decide (doubleHash top = hash)], 4⟩ = .ok () final ∧
          final.branches = [] ∧ ∃ item rest, final.stack = item :: rest ∧
          ScriptNumber.isTrue item = true) := by
  obtain ⟨push, lockChunk, hChunks, hPush, hLock⟩ :=
    hAdmissible.exists_chunks_of_expirableParts? hParts
  refine ⟨lockChunk, hLock, ?_⟩
  have hRun : ∀ final,
      runChunks ⟨script.encode, context, maxOps⟩ script.chunks (State.start stack) = .ok () final ↔
        stack.length ≤ 998 ∧ ∃ top below, stack = top :: below ∧
          runChunks ⟨script.encode, context, maxOps⟩ (Script.spendingPaths lockChunk)
            ⟨top :: below, [], [decide (doubleHash top = hash)], 4⟩ = .ok () final := by
    intro final
    rw [hChunks]
    exact runChunks_expirable_ok_iff hPush hOps
  rw [evaluate_failure_eq_none_iff]
  simp only [hRun]
  constructor
  · rintro ⟨final, ⟨hDepth, top, below, hStack, hPath⟩, hTrue⟩
    exact ⟨hDepth, top, below, hStack, final, hPath, hTrue⟩
  · rintro ⟨hDepth, top, below, hStack, final, hPath, hTrue⟩
    exact ⟨final, ⟨hDepth, top, below, hStack, hPath⟩, hTrue⟩

/-- Where the item on top has the hash, the output opens exactly if a valid signature stands below. -/
theorem evaluate_owner_eq_none_iff {top : Bytes} {below : Stack} (hAdmissible : script.Admissible)
    (hParts : script.expirableParts? = some (hash, lock)) (hOwner : doubleHash top = hash)
    (hOps : 7 ≤ maxOps) :
    (evaluate script (top :: below) context maxOps).failure = none ↔
      (top :: below).length ≤ 998 ∧ ∃ signature rest, below = signature :: rest ∧
        checkSignature ⟨script.encode, context, maxOps⟩ signature top = .ok true := by
  obtain ⟨lockChunk, hLock, hVerdict⟩ :=
    exists_evaluate_expirable_iff hAdmissible hParts (Nat.le_trans (by decide) hOps)
  rw [hVerdict]
  refine and_congr_right fun hDepth => ?_
  have hRoom : below.length + 1 ≤ maxStackDepth := Nat.le_trans hDepth (by decide)
  constructor
  · rintro ⟨_, _, hStack, final, hPath, -, item, _, hItem, hTrue⟩
    obtain ⟨rfl, rfl⟩ := List.cons.inj hStack
    rw [decide_eq_true hOwner, runChunks_owner_ok_iff hLock hRoom hOps] at hPath
    obtain ⟨signature, rest, valid, hBelow, hCheck, rfl⟩ := hPath
    obtain ⟨rfl, -⟩ := List.cons.inj hItem
    rw [isTrue_encode_ofBool] at hTrue
    rw [hTrue] at hCheck
    exact ⟨signature, rest, hBelow, hCheck⟩
  · rintro ⟨signature, rest, hBelow, hCheck⟩
    refine ⟨top, below, rfl, ⟨_ :: rest, [], [], 7⟩, ?_, rfl, _, rest, rfl, isTrue_encode_ofBool true⟩
    rw [decide_eq_true hOwner, runChunks_owner_ok_iff hLock hRoom hOps]
    exact ⟨signature, rest, true, hBelow, hCheck, rfl⟩

/-- Where the item on top does not have the hash, the output opens exactly if the lock has passed. -/
theorem evaluate_expired_eq_none_iff {context : Context} {input : TxIn} {top : Bytes} {below : Stack}
    (hAdmissible : script.Admissible) (hParts : script.expirableParts? = some (hash, lock))
    (hInput : context.cache.tx.inputs[context.inputIndex]? = some input)
    (hOther : doubleHash top ≠ hash) (hOps : 10 ≤ maxOps) :
    (evaluate script (top :: below) (some context) maxOps).failure = none ↔
      (top :: below).length ≤ 998 ∧ lock ≤ input.lockRel := by
  obtain ⟨lockChunk, hLock, hVerdict⟩ :=
    exists_evaluate_expirable_iff hAdmissible hParts (Nat.le_trans (by decide) hOps)
  rw [hVerdict]
  refine and_congr_right fun hDepth => ?_
  have hRoom : (top :: below).length + 1 ≤ maxStackDepth :=
    Nat.le_trans (Nat.succ_le_succ hDepth) (by decide)
  obtain ⟨count, hRun⟩ := exists_runChunks_expired_iff ⟨script.encode, some context, maxOps⟩ rfl
    hInput hLock hRoom hOps
  constructor
  · rintro ⟨_, _, hStack, final, hPath, -⟩
    obtain ⟨rfl, rfl⟩ := List.cons.inj hStack
    rw [decide_eq_false hOther] at hPath
    exact ((hRun final).1 hPath).1
  · intro hPassed
    refine ⟨top, below, rfl, ⟨_ :: top :: below, [], [], count⟩, ?_, rfl, _, _, rfl,
      isTrue_encode_ofBool true⟩
    rw [decide_eq_false hOther]
    exact (hRun _).2 ⟨hPassed, rfl⟩

/-- On an empty stack no output that expires opens. -/
theorem evaluate_expirable_nil_ne_none (hAdmissible : script.Admissible)
    (hParts : script.expirableParts? = some (hash, lock)) (hOps : 4 ≤ maxOps) :
    (evaluate script [] context maxOps).failure ≠ none := by
  obtain ⟨lockChunk, -, hVerdict⟩ := exists_evaluate_expirable_iff hAdmissible hParts hOps
  rw [Ne, hVerdict]
  rintro ⟨-, top, below, hStack, -⟩
  exact absurd hStack (by simp)

end Verdict

end Machine

namespace Tx

/-- A key and a valid signature on a stack are those that a check of the two items finds. -/
theorem exists_opensKeyLock_iff {cache : DigestCache} (hCache : cache.Faithful)
    {scheme : SignatureScheme} {index : Nat} {spent : TxOut} {hash : Hash256} {stack : Stack}
    {maxOps : Nat} :
    (∃ key signature, cache.tx.OpensKeyLock scheme index spent hash stack key signature) ↔
      ∃ key signature rest, stack = key :: signature :: rest ∧ doubleHash key = hash ∧
        checkSignature ⟨spent.script.encode, some ⟨cache, index, spent.value, scheme⟩, maxOps⟩
          signature key = .ok true := by
  constructor
  · rintro ⟨key, signature, ⟨rest, hStack⟩, hHash, digest, hDigest, hValid⟩
    rw [← hCache.sighashOf_eq] at hDigest
    exact ⟨_, _, rest, hStack, hHash, (checkSignature_eq_ok_iff rfl).2
      ⟨signature, key, digest, rfl, rfl, hDigest, hValid⟩⟩
  · rintro ⟨_, _, rest, hStack, hHash, hCheck⟩
    obtain ⟨signature, key, digest, rfl, rfl, hDigest, hValid⟩ :=
      (checkSignature_eq_ok_iff rfl).1 hCheck
    rw [hCache.sighashOf_eq] at hDigest
    exact ⟨key, signature, ⟨rest, hStack⟩, hHash, digest, hDigest, hValid⟩

/-- A stack opens an output that expires in one of two ways. -/
inductive OpensExpirable (tx : Tx) (scheme : SignatureScheme) (index : Nat) (lockRel : UInt32)
    (spent : TxOut) (hash : Hash256) (lock : UInt32) (stack : Stack) : Prop
  /-- The owner shows the key of the hash and signs. -/
  | owner (key : PublicKey) (signature : TxSignature)
      (opens : tx.OpensKeyLock scheme index spent hash stack key signature)
  /-- Anyone shows an item that does not have the hash, once the relative lock has passed. -/
  | expired (top : Bytes) (below : Stack) (stack_eq : stack = top :: below)
      (other : doubleHash top ≠ hash) (passed : lock ≤ lockRel)

/-- An item that has the hash opens the output only in the way of the owner. -/
theorem OpensExpirable.isOwner {tx : Tx} {scheme : SignatureScheme} {index : Nat}
    {lockRel : UInt32} {spent : TxOut} {hash : Hash256} {lock : UInt32} {top : Bytes} {below : Stack}
    (h : tx.OpensExpirable scheme index lockRel spent hash lock (top :: below))
    (hOwner : doubleHash top = hash) :
    ∃ key signature, tx.OpensKeyLock scheme index spent hash (top :: below) key signature := by
  cases h with
  | owner key signature opens => exact ⟨key, signature, opens⟩
  | expired _ _ stack_eq other _ =>
    obtain ⟨rfl, -⟩ := List.cons.inj stack_eq
    exact absurd hOwner other

/-- A script of an output that expires succeeds exactly on a stack of 1 to 998 items that opens the
output in one of the two ways. -/
theorem evaluate_eq_none_iff_opensExpirable {cache : DigestCache} (hCache : cache.Faithful)
    {scheme : SignatureScheme} {index : Nat} {input : TxIn} {spent : TxOut} {hash : Hash256}
    {lock : UInt32} {stack : Stack} {maxOps : Nat} (hInput : cache.tx.inputs[index]? = some input)
    (hAdmissible : spent.script.Admissible)
    (hParts : spent.script.expirableParts? = some (hash, lock)) (hOps : 10 ≤ maxOps) :
    (evaluate spent.script stack (some ⟨cache, index, spent.value, scheme⟩) maxOps).failure = none ↔
      1 ≤ stack.length ∧ stack.length ≤ 998 ∧
        cache.tx.OpensExpirable scheme index input.lockRel spent hash lock stack := by
  cases stack with
  | nil =>
    constructor
    · intro hOpen
      have hFour : 4 ≤ maxOps := Nat.le_trans (by decide) hOps
      exact absurd hOpen (evaluate_expirable_nil_ne_none hAdmissible hParts hFour)
    · rintro ⟨hSome, -⟩
      exact absurd hSome (by decide)
  | cons top below =>
    have hSome : 1 ≤ (top :: below).length := Nat.succ_le_succ (Nat.zero_le _)
    rw [and_iff_right hSome]
    -- The item on top decides which branch is taken, and with it which way is open.
    by_cases hOwner : doubleHash top = hash
    · rw [evaluate_owner_eq_none_iff hAdmissible hParts hOwner (Nat.le_trans (by decide) hOps)]
      refine and_congr_right fun _ => ?_
      constructor
      · rintro ⟨signature, rest, rfl, hCheck⟩
        obtain ⟨_, _, hOpens⟩ :=
          (exists_opensKeyLock_iff hCache).2 ⟨top, signature, rest, rfl, hOwner, hCheck⟩
        exact .owner _ _ hOpens
      · intro hWay
        obtain ⟨_, signature, rest, hStack, -, hCheck⟩ :=
          (exists_opensKeyLock_iff hCache).1 (hWay.isOwner hOwner)
        obtain ⟨rfl, hBelow⟩ := List.cons.inj hStack
        exact ⟨signature, rest, hBelow, hCheck⟩
    · rw [evaluate_expired_eq_none_iff hAdmissible hParts hInput hOwner hOps]
      refine and_congr_right fun _ => ?_
      constructor
      · intro hPassed
        exact .expired top below rfl hOwner hPassed
      · rintro (⟨key, signature, hOpens⟩ | ⟨_, _, _, _, hPassed⟩)
        · obtain ⟨rest, hStack⟩ := hOpens.stack_eq
          obtain ⟨rfl, -⟩ := List.cons.inj hStack
          exact absurd hOpens.hash_eq hOwner
        · exact hPassed

/-- An output that expires is unlocked by an input exactly if the input script only pushes, runs to
its end, and leaves from 1 to 998 items that open the output in one of the two ways. Where the item on
top has the hash of the output, it is the way of the owner. -/
theorem verifyInput_iff_opensExpirable (rules : Rules) (lookup : OutputLookup) (cache : DigestCache)
    (index : Nat) (input : TxIn) (spent : TxOut) (hash : Hash256) (lock : UInt32)
    (hCache : cache.Faithful) (hInput : cache.tx.inputs[index]? = some input)
    (hMint : input.isMint = false) (hSpent : lookup input.point = some spent)
    (hAdmissible : spent.script.Admissible)
    (hParts : spent.script.expirableParts? = some (hash, lock))
    (hOps : 10 ≤ rules.params.maxScriptOps.toNat) :
    (verifyInput rules lookup cache index = .ok () ↔
      input.script.isPushOnly = true ∧ ∃ state,
        execute input.script [] (some ⟨cache, index, spent.value, rules.scheme⟩)
          rules.params.maxScriptOps.toNat = (.ok (), state) ∧
        1 ≤ state.stack.length ∧ state.stack.length ≤ 998 ∧
        cache.tx.OpensExpirable rules.scheme index input.lockRel spent hash lock state.stack) ∧
    (verifyInput rules lookup cache index = .ok () → ∀ state top below,
      execute input.script [] (some ⟨cache, index, spent.value, rules.scheme⟩)
        rules.params.maxScriptOps.toNat = (.ok (), state) →
      state.stack = top :: below → doubleHash top = hash → ∃ key signature,
        cache.tx.OpensKeyLock rules.scheme index spent hash state.stack key signature) := by
  have hSpend := verifyInput_eq_ok_iff_of_spent rules hInput hMint hSpent
  have hOpens : ∀ state : State,
      (evaluate spent.script state.stack (some ⟨cache, index, spent.value, rules.scheme⟩)
        rules.params.maxScriptOps.toNat).failure = none ↔
      1 ≤ state.stack.length ∧ state.stack.length ≤ 998 ∧
        cache.tx.OpensExpirable rules.scheme index input.lockRel spent hash lock state.stack :=
    fun state => evaluate_eq_none_iff_opensExpirable hCache hInput hAdmissible hParts hOps
  -- The second part reads the first: a run has one result, so the stack is the one that was judged.
  have hBoth : verifyInput rules lookup cache index = .ok () ↔
      input.script.isPushOnly = true ∧ ∃ state,
        execute input.script [] (some ⟨cache, index, spent.value, rules.scheme⟩)
          rules.params.maxScriptOps.toNat = (.ok (), state) ∧
        1 ≤ state.stack.length ∧ state.stack.length ≤ 998 ∧
        cache.tx.OpensExpirable rules.scheme index input.lockRel spent hash lock state.stack := by
    simp only [hSpend, hOpens]
  refine ⟨hBoth, fun hOk state top below hRun hStack hOwner => ?_⟩
  obtain ⟨-, final, hFinal, -, -, hWay⟩ := hBoth.1 hOk
  obtain rfl : final = state := (Prod.mk.inj (hFinal.symm.trans hRun)).2
  rw [hStack] at hWay ⊢
  exact hWay.isOwner hOwner

end Tx

namespace Sample

/-! ## An output spent in both ways

The output is that of the key, with a relative lock of 5. -/

/-- The output that expires. -/
def expiring : TxOut :=
  ⟨9, ((Script.expirableOutput (pubKeyHash key.toBytes) 5).toOption.getD .empty)⟩

/-- The output set that holds the output. -/
def expiringOnly : OutputSet := OutputSet.empty.insert point expiring

/-- The signature of the owner. -/
def ownerSignature : TxSignature :=
  ⟨.all, FixedBytes.ofNat <|
    0x0ae18b5f1c55f3c4dcfc7087940e51ea434650d0330d5aaa15ce9ca41943ff61 * 2 ^ 256 +
      0x7d39a0fbb7eec9f5a70aa90f1dbff61eab99eb571a5d916d184396519c705c1c⟩

/-- The input of the owner, who does not wait. -/
def ownerInput : TxIn :=
  ⟨point, ⟨[⟨Opcode.pushData1.toByte, some ownerSignature.toBytes⟩,
    ⟨Opcode.pushData1.toByte, some key.toBytes⟩]⟩, 0⟩

/-- The transaction of the owner. -/
def ownerSpend : Tx := ⟨0, [ownerInput], [⟨9, lock⟩], 0⟩

/-- The input of someone who waits. -/
def waitedInput : TxIn := ⟨point, .expiredInput, 5⟩

/-- The transaction of someone who waits. -/
def waitedSpend : Tx := ⟨0, [waitedInput], [⟨9, lock⟩], 0⟩

/-- The owner opens the output with the key, and someone who waits opens it without. -/
theorem exists_opensExpirable :
    (Tx.verifyInput rules expiringOnly.get? (.ofTx ownerSpend) 0 = .ok () ∧ ∃ stack key signature,
      ownerSpend.OpensKeyLock rules.scheme 0 expiring (pubKeyHash Sample.key.toBytes) stack key
        signature) ∧
    (Tx.verifyInput rules expiringOnly.get? (.ofTx waitedSpend) 0 = .ok () ∧ ∃ stack,
      waitedSpend.OpensExpirable rules.scheme 0 5 expiring (pubKeyHash Sample.key.toBytes) 5
        stack) := by
  have hAdmissible : expiring.script.Admissible := by decide +kernel
  have hParts : expiring.script.expirableParts? = some (pubKeyHash key.toBytes, 5) := by
    decide +kernel
  have hOwnerOk : Tx.verifyInput rules expiringOnly.get? (.ofTx ownerSpend) 0 = .ok () := by
    decide +kernel
  have hOwnerSpent : expiringOnly.get? ownerInput.point = some expiring := by decide +kernel
  have hWaitedOk : Tx.verifyInput rules expiringOnly.get? (.ofTx waitedSpend) 0 = .ok () := by
    decide +kernel
  have hWaitedSpent : expiringOnly.get? waitedInput.point = some expiring := by decide +kernel
  refine ⟨⟨hOwnerOk, ?_⟩, hWaitedOk, ?_⟩
  · obtain ⟨-, state, -, -, -, hWay⟩ :=
      (Tx.verifyInput_iff_opensExpirable rules expiringOnly.get? (.ofTx ownerSpend) 0 ownerInput
        expiring (pubKeyHash key.toBytes) 5 (DigestCache.faithful_ofTx ownerSpend) rfl (by decide)
        hOwnerSpent hAdmissible hParts (by decide)).1.1 hOwnerOk
    -- The owner has not waited, so this is not the way of someone else.
    cases hWay with
    | owner key signature opens => exact ⟨state.stack, key, signature, opens⟩
    | expired _ _ _ _ passed => exact absurd passed (by decide)
  · obtain ⟨-, state, -, -, -, hWay⟩ :=
      (Tx.verifyInput_iff_opensExpirable rules expiringOnly.get? (.ofTx waitedSpend) 0 waitedInput
        expiring (pubKeyHash key.toBytes) 5 (DigestCache.faithful_ofTx waitedSpend) rfl (by decide)
        hWaitedSpent hAdmissible hParts (by decide)).1.1 hWaitedOk
    exact ⟨state.stack, hWay⟩

end Sample

end UtxoChain
