import UtxoChain.Proofs.Machine.Sight
import UtxoChain.Proofs.Rules.KeyLock
import UtxoChain.Proofs.Tx.Preimage

/-!
# What an input script decides

Transactions that differ in their input scripts only look alike to every script
(`Tx.looksLike_of_withoutScripts_eq`), since no digest and no lock is made of an input script. So the
verdict on an input depends on the scripts of the other inputs not at all, and on its own only through
the stack that it leaves (`Tx.verifyInput_eq_of_withoutScripts_eq`).
-/

namespace UtxoChain

open Machine

/-! ## The stack that a script leaves -/

/-- A script only pushes, and it runs to its end and leaves a stack. -/
structure Script.Leaves (script : Script) (maxOps : Nat) (stack : Stack) : Prop where
  /-- The script only pushes. -/
  isPushOnly : script.isPushOnly = true
  /-- It runs to its end and leaves the stack. A script that only pushes does so whatever it runs
  for, or for nothing. -/
  exists_execute : ∃ context state,
    execute script [] context maxOps = (.ok (), state) ∧ state.stack = stack

/-- A script leaves its stack whatever it runs for. -/
theorem Script.Leaves.execute_eq {script : Script} {maxOps : Nat} {stack : Stack}
    (h : script.Leaves maxOps stack) (context : Option Context) :
    ∃ state, execute script [] context maxOps = (.ok (), state) ∧ state.stack = stack := by
  obtain ⟨given, state, hExecute, hStack⟩ := h.exists_execute
  have hSame := execute_eq_of_isPushOnly h.isPushOnly [] given context maxOps
  exact ⟨state, hSame ▸ hExecute, hStack⟩

namespace Tx

/-- After a script that leaves a stack, the verdict is that of the spent script on the stack. -/
theorem runScripts_of_leaves {rules : Rules} {input : TxIn} {stack : Stack}
    (h : input.script.Leaves rules.params.maxScriptOps.toNat stack) (cache : DigestCache)
    (index : Nat) (spent : TxOut) :
    runScripts rules cache index input spent =
      match (evaluate spent.script stack (some ⟨cache, index, spent.value, rules.scheme⟩)
        rules.params.maxScriptOps.toNat).failure with
      | none => .ok ()
      | some reason => .error reason := by
  obtain ⟨state, hExecute, rfl⟩ := h.execute_eq (some ⟨cache, index, spent.value, rules.scheme⟩)
  unfold runScripts
  rw [if_pos h.isPushOnly]
  dsimp only
  rw [hExecute]
  rfl

/-! ## Transactions that differ in their input scripts only -/

section

variable {rules : Rules} {lookup : OutputLookup} {cache other : DigestCache} {index : Nat}

/-- An input looks alike in transactions that differ in their input scripts only. -/
theorem looksLike_of_withoutScripts_eq (hCache : cache.Faithful) (hOther : other.Faithful)
    (h : cache.tx.withoutScripts = other.tx.withoutScripts) (index : Nat) (amount : UInt64)
    (scheme : SignatureScheme) :
    Context.LooksLike ⟨cache, index, amount, scheme⟩ ⟨other, index, amount, scheme⟩ where
  scheme := rfl
  sighash _ _ := congrFun (sighashOf_eq_of_withoutScripts_eq hCache hOther h) _
  lockAbs := by
    have hLock := congrArg Tx.lockAbs h
    exact hLock
  lockRel := by
    have hLocks : cache.tx.inputs.map TxIn.lockRel = other.tx.inputs.map TxIn.lockRel :=
      map_eq_of_withoutScripts_eq h fun _ => rfl
    rw [← List.getElem?_map, hLocks, List.getElem?_map]

/-- Inputs of one outpoint have one verdict if their scripts do the same with every spent output. -/
theorem verifyInput_congr {input otherInput : TxIn} (hInput : cache.tx.inputs[index]? = some input)
    (hOtherInput : other.tx.inputs[index]? = some otherInput) (hPoint : input.point = otherInput.point)
    (h : ∀ spent,
      runScripts rules cache index input spent = runScripts rules other index otherInput spent) :
    verifyInput rules lookup cache index = verifyInput rules lookup other index := by
  unfold verifyInput
  rw [hInput, hOtherInput]
  dsimp only
  unfold TxIn.isMint spentOutput
  simp only [hPoint, h]

/-- An input has the verdict that it has in a transaction that differs in its input scripts only, if
its script leaves the same stack there. -/
theorem verifyInput_eq_of_leaves {input otherInput : TxIn} {stack : Stack}
    (hCache : cache.Faithful) (hOther : other.Faithful)
    (h : cache.tx.withoutScripts = other.tx.withoutScripts)
    (hInput : cache.tx.inputs[index]? = some input)
    (hOtherInput : other.tx.inputs[index]? = some otherInput)
    (hLeaves : input.script.Leaves rules.params.maxScriptOps.toNat stack)
    (hOtherLeaves : otherInput.script.Leaves rules.params.maxScriptOps.toNat stack) :
    verifyInput rules lookup cache index = verifyInput rules lookup other index := by
  have hPoint : input.point = otherInput.point := by
    have hPoints := congrArg (·[index]?) (map_point_eq_of_withoutScripts_eq h)
    simpa [hInput, hOtherInput] using hPoints
  refine verifyInput_congr hInput hOtherInput hPoint fun spent => ?_
  have hLook := looksLike_of_withoutScripts_eq hCache hOther h index spent.value rules.scheme
  rw [runScripts_of_leaves hLeaves, runScripts_of_leaves hOtherLeaves, evaluate_eq hLook]

/-- An input has the verdict that it has in a transaction that differs in the scripts of other inputs
only. -/
theorem verifyInput_eq_of_getElem?_eq (hCache : cache.Faithful) (hOther : other.Faithful)
    (h : cache.tx.withoutScripts = other.tx.withoutScripts)
    (hSame : cache.tx.inputs[index]? = other.tx.inputs[index]?) :
    verifyInput rules lookup cache index = verifyInput rules lookup other index := by
  cases hInput : cache.tx.inputs[index]? with
  | none =>
    have hOtherInput := hSame.symm.trans hInput
    unfold verifyInput
    rw [hInput, hOtherInput]
  | some input =>
    -- The script of the input may fail or not only push, so it is the run itself that is the same.
    refine verifyInput_congr hInput (hSame ▸ hInput) rfl fun spent => ?_
    have hLook := looksLike_of_withoutScripts_eq hCache hOther h index spent.value rules.scheme
    unfold runScripts
    simp only [execute_eq hLook, evaluate_eq hLook]

/-- The verdict on an input depends on its own script only through the stack that it leaves, and on
the scripts of the other inputs not at all. In two transactions that differ in their input scripts
only, an input has the same verdict, with the same fault, if its two scripts only push, run to their
end and leave one stack, and also if it is the same input whatever its script does. -/
theorem verifyInput_eq_of_withoutScripts_eq (rules : Rules) (lookup : OutputLookup)
    (cache other : DigestCache) (index : Nat) (hCache : cache.Faithful) (hOther : other.Faithful)
    (h : cache.tx.withoutScripts = other.tx.withoutScripts) :
    (∀ input otherInput stack, cache.tx.inputs[index]? = some input →
      other.tx.inputs[index]? = some otherInput →
      input.script.Leaves rules.params.maxScriptOps.toNat stack →
      otherInput.script.Leaves rules.params.maxScriptOps.toNat stack →
      verifyInput rules lookup cache index = verifyInput rules lookup other index) ∧
    (cache.tx.inputs[index]? = other.tx.inputs[index]? →
      verifyInput rules lookup cache index = verifyInput rules lookup other index) :=
  ⟨fun _ _ _ => verifyInput_eq_of_leaves hCache hOther h,
    verifyInput_eq_of_getElem?_eq hCache hOther h⟩

end

end Tx

namespace Sample

/-! ## One item written in two ways

Below the signature and the key stands an item that no script looks at. An opcode pushes it, or a chunk
with payload does. -/

/-- The signed input with a chunk before its signature. -/
def unlockingAfter (chunk : Chunk) : TxIn :=
  { unlocking with script := ⟨chunk :: unlocking.script.chunks⟩ }

/-- The signed transaction with a chunk before the signature. -/
def signedSpendAfter (chunk : Chunk) : Tx :=
  { signedSpend with inputs := [unlockingAfter chunk] }

/-- The opcode that pushes the item. -/
def pushedByOpcode : Chunk := .ofOpcode .op1

/-- The chunk whose payload is the item. -/
def pushedAsData : Chunk := ⟨Opcode.pushData1.toByte, some [1]⟩

/-- The item can be written the other way, by whoever passes the transaction on: the input stays
unlocked. -/
theorem verifyInput_signedSpendAfter :
    pushedByOpcode ≠ pushedAsData ∧
    Tx.verifyInput rules ownedOnly.get? (.ofTx (signedSpendAfter pushedByOpcode)) 0 = .ok () ∧
      Tx.verifyInput rules ownedOnly.get? (.ofTx (signedSpendAfter pushedAsData)) 0 = .ok () := by
  have hOk : Tx.verifyInput rules ownedOnly.get? (.ofTx (signedSpendAfter pushedByOpcode)) 0 =
      .ok () := by decide +kernel
  have hByOpcode : (unlockingAfter pushedByOpcode).script.Leaves rules.params.maxScriptOps.toNat
      [key.toBytes, signature.toBytes, [1]] :=
    ⟨by decide, none, ⟨[key.toBytes, signature.toBytes, [1]], [], [], 1⟩, by decide +kernel, rfl⟩
  have hAsData : (unlockingAfter pushedAsData).script.Leaves rules.params.maxScriptOps.toNat
      [key.toBytes, signature.toBytes, [1]] :=
    ⟨by decide, none, ⟨[key.toBytes, signature.toBytes, [1]], [], [], 0⟩, by decide +kernel, rfl⟩
  obtain ⟨hSame, -⟩ := Tx.verifyInput_eq_of_withoutScripts_eq rules ownedOnly.get?
    (.ofTx (signedSpendAfter pushedByOpcode)) (.ofTx (signedSpendAfter pushedAsData)) 0
    (DigestCache.faithful_ofTx _) (DigestCache.faithful_ofTx _) rfl
  exact ⟨by decide, hOk, (hSame _ _ _ rfl rfl hByOpcode hAsData).symm.trans hOk⟩

end Sample

end UtxoChain
