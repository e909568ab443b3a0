import UtxoChain.Proofs.Machine.Cached
import UtxoChain.Rules.Transaction

/-!
# One cache for all inputs

The scripts of a transaction are checked with one cache, which the signature checks of an input fill and
those of later inputs find filled. It makes no difference: with a new cache for each input the verdict
is the same, and so it is with a cache that is full from the start, as the check that runs has it.
-/

namespace UtxoChain

namespace Tx.Cached

open DigestCache (Answers)

variable {tx : Tx}

/-- The scripts of an input and of the output it spends succeed. Their signature checks ask the
cache. -/
def runScripts (rules : Rules) (index : Nat) (input : TxIn) (spent : TxOut) :
    StateM DigestCache (Except ScriptFailure Unit) := do
  if input.script.isPushOnly then
    let context : Machine.Context := ⟨← get, index, spent.value, rules.scheme⟩
    let maxOps := rules.params.maxScriptOps.toNat
    match ← Machine.Cached.execute input.script [] (some context) maxOps with
    | (.error failure, _) => return .error failure
    | (.ok (), state) =>
      let outcome ← Machine.Cached.evaluate spent.script state.stack (some context) maxOps
      match outcome.failure with
      | none => return .ok ()
      | some reason => return .error reason
  else return .error .notPushOnly

/-- The input at a position is unlocked. The mint sentinel unlocks nothing. -/
def verifyInput (rules : Rules) (lookup : OutputLookup) (index : Nat) :
    StateM DigestCache (Except TxFault Unit) := do
  match (← get).tx.inputs[index]? with
  | none => return .error (.noInput index)
  | some input =>
    if input.isMint then return .ok ()
    else
      match spentOutput lookup index input with
      | .error fault => return .error fault
      | .ok spent => return (← runScripts rules index input spent).mapError (.script index)

/-- The inputs at some positions are unlocked, in order. Each finds what those before it filled. -/
def verifyInputs (rules : Rules) (lookup : OutputLookup) :
    List Nat → StateM DigestCache (Except TxFault Unit)
  | [] => return .ok ()
  | index :: rest => do
    match ← verifyInput rules lookup index with
    | .error fault => return .error fault
    | .ok () => verifyInputs rules lookup rest

/-- Every input is unlocked, in order, with one cache. -/
def verifyShared (rules : Rules) (lookup : OutputLookup) (tx : Tx) : Except TxFault Unit :=
  (verifyInputs rules lookup (List.range tx.inputs.length) (DigestCache.ofTx tx)).1

/-- Every input is unlocked, in order, with a new cache for each. -/
def verifyApart (rules : Rules) (lookup : OutputLookup) (tx : Tx) : Except TxFault Unit :=
  (List.range tx.inputs.length).forM fun index =>
    (verifyInput rules lookup index (DigestCache.ofTx tx)).1

/-- The scripts of an input succeed if they do with a full cache. -/
theorem answers_runScripts {full : DigestCache} (hFull : full.Serves tx) (rules : Rules)
    (index : Nat) (input : TxIn) (spent : TxOut) :
    Answers tx (runScripts rules index input spent)
      (Tx.runScripts rules full index input spent) := by
  unfold runScripts Tx.runScripts
  split_ifs
  · refine Answers.get_bind fun cache hCache => ?_
    refine (Machine.Cached.answers_execute hFull hCache.tx_eq _ _ _).bind ?_
    dsimp only
    obtain ⟨result, state⟩ := Machine.execute input.script []
      (some ⟨full, index, spent.value, rules.scheme⟩) rules.params.maxScriptOps.toNat
    cases result with
    | error failure => exact DigestCache.answers_pure _
    | ok done =>
      refine (Machine.Cached.answers_evaluate hFull hCache.tx_eq _ _ _).bind ?_
      dsimp only
      cases (Machine.evaluate spent.script state.stack
        (some ⟨full, index, spent.value, rules.scheme⟩) rules.params.maxScriptOps.toNat).failure with
      | none => exact DigestCache.answers_pure _
      | some reason => exact DigestCache.answers_pure _
  · exact DigestCache.answers_pure _

/-- An input is unlocked if it is with a full cache. -/
theorem answers_verifyInput {full : DigestCache} (hFull : full.Serves tx) (rules : Rules)
    (lookup : OutputLookup) (index : Nat) :
    Answers tx (verifyInput rules lookup index) (Tx.verifyInput rules lookup full index) := by
  refine Answers.get_bind fun cache hCache => ?_
  unfold Tx.verifyInput
  rw [hCache.tx_eq, hFull.tx_eq]
  cases tx.inputs[index]? with
  | none => exact DigestCache.answers_pure _
  | some input =>
    dsimp only
    split_ifs
    · exact DigestCache.answers_pure _
    · cases spentOutput lookup index input with
      | error fault => exact DigestCache.answers_pure _
      | ok spent =>
        exact (answers_runScripts hFull rules index input spent).bind (DigestCache.answers_pure _)

/-- Inputs are unlocked one after the other if they are with a full cache. -/
theorem answers_verifyInputs {full : DigestCache} (hFull : full.Serves tx) (rules : Rules)
    (lookup : OutputLookup) (indices : List Nat) :
    Answers tx (verifyInputs rules lookup indices)
      (indices.forM (Tx.verifyInput rules lookup full)) := by
  induction indices with
  | nil => exact DigestCache.answers_pure _
  | cons index indices ih =>
    refine (answers_verifyInput hFull rules lookup index).bind ?_
    change Answers tx _ (Tx.verifyInput rules lookup full index >>= fun _ =>
      indices.forM (Tx.verifyInput rules lookup full))
    cases Tx.verifyInput rules lookup full index with
    | error fault => exact DigestCache.answers_pure _
    | ok done => exact ih

/-- With one cache the verdict is that of the check that runs. -/
theorem verifyShared_eq (rules : Rules) (lookup : OutputLookup) (tx : Tx) :
    verifyShared rules lookup tx = tx.verifyScripts rules lookup := by
  obtain ⟨after, hVerdict, -⟩ := answers_verifyInputs (DigestCache.serves_fillAll_ofTx tx) rules
    lookup (List.range tx.inputs.length) (DigestCache.ofTx tx) (DigestCache.serves_ofTx tx)
  unfold verifyShared
  rw [hVerdict]
  rfl

/-- With a new cache for each input the verdict is that of the check that runs. -/
theorem verifyApart_eq (rules : Rules) (lookup : OutputLookup) (tx : Tx) :
    verifyApart rules lookup tx = tx.verifyScripts rules lookup := by
  have hInput : ∀ index, (verifyInput rules lookup index (DigestCache.ofTx tx)).1 =
      Tx.verifyInput rules lookup (DigestCache.ofTx tx).fillAll index := by
    intro index
    obtain ⟨after, hVerdict, -⟩ := answers_verifyInput (DigestCache.serves_fillAll_ofTx tx) rules
      lookup index (DigestCache.ofTx tx) (DigestCache.serves_ofTx tx)
    rw [hVerdict]
  unfold verifyApart Tx.verifyScripts
  congr 1
  exact funext hInput

end Tx.Cached

/-- A cache makes no difference. Whatever calls are made to one cache of a transaction, in any order,
each answer is the one that is computed anew; and the scripts of the transaction have the same verdict
with one cache for all inputs, with a new one for each, and with one that is full from the start. -/
theorem DigestCache.transparent (tx : Tx) :
    (∀ calls : List DigestCache.Call,
      (calls.mapM Call.remembered (ofTx tx)).1 = calls.map (Call.direct tx)) ∧
    ∀ (rules : Rules) (lookup : OutputLookup),
      Tx.Cached.verifyShared rules lookup tx = Tx.Cached.verifyApart rules lookup tx ∧
        Tx.Cached.verifyShared rules lookup tx = tx.verifyScripts rules lookup := by
  refine ⟨mapM_remembered_ofTx tx, fun rules lookup => ?_⟩
  have hShared := Tx.Cached.verifyShared_eq rules lookup tx
  have hApart := Tx.Cached.verifyApart_eq rules lookup tx
  exact ⟨hShared.trans hApart.symm, hShared⟩

end UtxoChain
