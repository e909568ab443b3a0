import UtxoChain.Proofs.Machine.Paired

/-!
# What a script sees of its transaction

A script sees of the transaction for which it runs the digests that its signatures are checked against
and the two locks that it may demand. Where two transaction inputs look alike in these
(`Context.LooksLike`), every opcode does the same for both, and so does every script (`execute_eq`,
`evaluate_eq`). A script that only pushes sees nothing at all (`execute_eq_of_isPushOnly`).

An opcode that does the same in two environments is all that a run needs of them (`execute_congr`).
-/

namespace UtxoChain.Machine

/-! ## Runs of opcodes that do the same -/

/-- Doing the same is inherited by runs, if as many opcodes may be counted. -/
theorem paired_eq {env other : Env} (hMaxOps : env.maxOps = other.maxOps) :
    Paired env other Eq where
  same _ := rfl
  countOp := by
    unfold countOp
    rw [hMaxOps]
  bind hFirst hNext := by
    rw [hFirst, funext hNext]

/-- A script does the same for two transaction inputs where each of its opcodes does. -/
theorem execute_congr {script : Script} {context other : Option Context} {maxOps : Nat}
    (h : ∀ chunk ∈ script.chunks, chunk.payload = none → ∀ op, chunk.op? = some op →
      step ⟨script.encode, context, maxOps⟩ op = step ⟨script.encode, other, maxOps⟩ op)
    (stack : Stack) : execute script stack context maxOps = execute script stack other maxOps := by
  have hPaired : Paired ⟨script.encode, context, maxOps⟩ ⟨script.encode, other, maxOps⟩ Eq :=
    paired_eq rfl
  unfold execute
  rw [hPaired.runBalanced h]

/-- A script has the same verdict where it does the same. -/
theorem evaluate_congr {script : Script} {stack : Stack} {context other : Option Context}
    {maxOps : Nat} (h : execute script stack context maxOps = execute script stack other maxOps) :
    evaluate script stack context maxOps = evaluate script stack other maxOps := by
  unfold evaluate
  rw [h]

/-- An opcode does the same in two environments where signatures and locks are checked alike. -/
theorem step_congr {env other : Env} (hCheck : checkSignature env = checkSignature other)
    (hLockAbs : checkLockAbs env = checkLockAbs other)
    (hLockRel : checkLockRel env = checkLockRel other) (op : Opcode) :
    step env op = step other op := by
  have hSingle : popSignatureCheck env = popSignatureCheck other := by
    unfold popSignatureCheck
    rw [hCheck]
  have hMulti : popMultiSignatureCheck env = popMultiSignatureCheck other := by
    unfold popMultiSignatureCheck
    rw [hCheck]
  cases op
  case checkSig => rw [step, step, hSingle]
  case checkSigVerify => rw [step, step, hSingle]
  case checkMultiSig => rw [step, step, hMulti]
  case checkMultiSigVerify => rw [step, step, hMulti]
  case checkLockAbsVerify => exact hLockAbs
  case checkLockRelVerify => exact hLockRel
  all_goals rfl

/-! ## Scripts that only push -/

/-- An opcode that pushes a number sees nothing. -/
theorem step_eq_of_pushesNumber {env other : Env} {chunk : Chunk} {op : Opcode}
    (hChunk : Script.pushesNumber chunk = true) (hOp : chunk.op? = some op) :
    step env op = step other op := by
  unfold Script.pushesNumber at hChunk
  rw [hOp] at hChunk
  cases op <;> first | rfl | exact absurd hChunk (by decide)

/-- A script that only pushes does the same whatever it runs for. -/
theorem execute_eq_of_isPushOnly {script : Script} (h : script.isPushOnly = true) (stack : Stack)
    (context other : Option Context) (maxOps : Nat) :
    execute script stack context maxOps = execute script stack other maxOps := by
  refine execute_congr (fun chunk hChunk hPayload op hOp => ?_) stack
  have hPushes := List.all_eq_true.1 h chunk hChunk
  rw [Chunk.isPush, hPayload, Option.isSome_none, Bool.false_or] at hPushes
  exact step_eq_of_pushesNumber hPushes hOp

/-! ## Transaction inputs that look alike -/

/-- Two transaction inputs show a script the same. -/
structure Context.LooksLike (context other : Context) : Prop where
  /-- The signatures are checked by the same scheme. -/
  scheme : context.scheme = other.scheme
  /-- The signatures of a script are checked against the same digests. -/
  sighash : ∀ script type,
    context.cache.sighashOf ⟨context.inputIndex, script, context.amount, type⟩ =
      other.cache.sighashOf ⟨other.inputIndex, script, other.amount, type⟩
  /-- The absolute locks are the same. -/
  lockAbs : context.cache.tx.lockAbs = other.cache.tx.lockAbs
  /-- The relative locks are the same. -/
  lockRel : context.cache.tx.inputs[context.inputIndex]?.map TxIn.lockRel =
    other.cache.tx.inputs[other.inputIndex]?.map TxIn.lockRel

section

variable {context other : Context} {scriptCode : Bytes} {maxOps : Nat}

/-- A signature is checked alike. -/
theorem checkSignature_eq (h : context.LooksLike other) :
    checkSignature ⟨scriptCode, some context, maxOps⟩ =
      checkSignature ⟨scriptCode, some other, maxOps⟩ := by
  funext signature key
  unfold checkSignature Env.contextFor
  dsimp only [bind, Except.bind]
  simp only [h.sighash, h.scheme]

/-- The absolute lock is checked alike. -/
theorem checkLockAbs_eq (h : context.LooksLike other) :
    checkLockAbs ⟨scriptCode, some context, maxOps⟩ =
      checkLockAbs ⟨scriptCode, some other, maxOps⟩ := by
  change (peekLock >>= fun required => checkLock required context.cache.tx.lockAbs.toNat) =
    (peekLock >>= fun required => checkLock required other.cache.tx.lockAbs.toNat)
  rw [h.lockAbs]

/-- The relative lock is checked alike. -/
theorem checkLockRel_eq (h : context.LooksLike other) :
    checkLockRel ⟨scriptCode, some context, maxOps⟩ =
      checkLockRel ⟨scriptCode, some other, maxOps⟩ := by
  have hLock := h.lockRel
  unfold checkLockRel Env.contextFor
  dsimp only [decided]
  rw [pure_bind, pure_bind]
  cases hInput : context.cache.tx.inputs[context.inputIndex]? with
  | none =>
    rw [hInput, Option.map_none, eq_comm, Option.map_eq_none_iff] at hLock
    rw [hLock]
  | some input =>
    rw [hInput, Option.map_some, eq_comm, Option.map_eq_some_iff] at hLock
    obtain ⟨otherInput, hOther, hSame⟩ := hLock
    rw [hOther]
    dsimp only
    rw [hSame]

/-- Every opcode does the same for transaction inputs that look alike. -/
theorem step_eq (h : context.LooksLike other) (op : Opcode) :
    step ⟨scriptCode, some context, maxOps⟩ op = step ⟨scriptCode, some other, maxOps⟩ op :=
  step_congr (checkSignature_eq h) (checkLockAbs_eq h) (checkLockRel_eq h) op

end

/-- A script does the same for transaction inputs that look alike. -/
theorem execute_eq {context other : Context} (h : context.LooksLike other) (script : Script)
    (stack : Stack) (maxOps : Nat) :
    execute script stack (some context) maxOps = execute script stack (some other) maxOps :=
  execute_congr (fun _ _ _ op _ => step_eq h op) stack

/-- A script has the same verdict for transaction inputs that look alike. -/
theorem evaluate_eq {context other : Context} (h : context.LooksLike other) (script : Script)
    (stack : Stack) (maxOps : Nat) :
    evaluate script stack (some context) maxOps = evaluate script stack (some other) maxOps :=
  evaluate_congr (execute_eq h script stack maxOps)

end UtxoChain.Machine
