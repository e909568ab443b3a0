import UtxoChain.Chain.Params
import UtxoChain.Machine.Run

/-!
# The rules for a transaction

A transaction is checked against the outputs it spends: its structure, the scripts of its inputs, and
its values. Each check stands on its own; `verify` makes them in this order and reports the first
fault.
-/

namespace UtxoChain

/-- What the rules depend on: the parameters of the chain and the scheme of its signatures. -/
structure Rules where
  /-- The parameters of the chain. -/
  params : Params
  /-- The scheme of the signatures. -/
  scheme : SignatureScheme

/-- The first of some outpoints that occurs before it, in `seen` or in the list itself. -/
def firstRepeat (seen : List OutPoint) : List OutPoint → Option OutPoint
  | [] => none
  | point :: rest => if point ∈ seen then some point else firstRepeat (point :: seen) rest

namespace Tx

/-- There are inputs and outputs, the output values fit a word, no outpoint is named twice, and the
mint sentinel stands only where the transaction mints. -/
def verifyStructure (tx : Tx) : Except TxFault Unit :=
  if tx.inputs.isEmpty then .error .noInputs
  else if tx.outputs.isEmpty then .error .noOutputs
  else if tx.totalOutput.isNone then .error .outputOverflow
  else
    match firstRepeat [] (tx.inputs.map TxIn.point) with
    | some point => .error (.duplicateInput point)
    | none =>
      if !tx.isMint && tx.inputs.any TxIn.isMint then .error .strayMint else .ok ()

/-- The output that the input at a position spends. -/
def spentOutput (lookup : OutputLookup) (index : Nat) (input : TxIn) : Except TxFault TxOut :=
  match lookup input.point with
  | some output => .ok output
  | none => .error (.unknownOutput index input.point)

/-- The scripts of an input and of the output it spends succeed: the input script only pushes, and
the output script leaves a true item when it runs on what was pushed. -/
def runScripts (rules : Rules) (cache : DigestCache) (index : Nat) (input : TxIn) (spent : TxOut) :
    Except ScriptFailure Unit := do
  if input.script.isPushOnly then
    let context : Machine.Context := ⟨cache, index, spent.value, rules.scheme⟩
    let maxOps := rules.params.maxScriptOps.toNat
    let (result, state) := Machine.execute input.script [] (some context) maxOps
    result
    match (Machine.evaluate spent.script state.stack (some context) maxOps).failure with
    | none => return ()
    | some reason => throw reason
  else throw .notPushOnly

/-- The input at a position is unlocked. The mint sentinel unlocks nothing. -/
def verifyInput (rules : Rules) (lookup : OutputLookup) (cache : DigestCache) (index : Nat) :
    Except TxFault Unit :=
  match cache.tx.inputs[index]? with
  | none => .error (.noInput index)
  | some input =>
    if input.isMint then .ok ()
    else do
      let spent ← spentOutput lookup index input
      (runScripts rules cache index input spent).mapError (.script index)

/-- Every input is unlocked, in order. The digests of the transaction are computed once. -/
def verifyScripts (rules : Rules) (lookup : OutputLookup) (tx : Tx) : Except TxFault Unit :=
  let cache := (DigestCache.ofTx tx).fillAll
  (List.range tx.inputs.length).forM (verifyInput rules lookup cache)

/-- The sum of the values that inputs spend, the first of which has the given position. -/
def spentValue (lookup : OutputLookup) : Nat → UInt64 → List TxIn → Except TxFault UInt64
  | _, sum, [] => .ok sum
  | index, sum, input :: rest => do
    let spent ← spentOutput lookup index input
    match checkedAdd sum spent.value with
    | none => .error .inputOverflow
    | some sum => spentValue lookup (index + 1) sum rest

/-- No more value is created than spent, unless the transaction mints. -/
def verifyAmounts (lookup : OutputLookup) (tx : Tx) : Except TxFault Unit :=
  if tx.isMint then .ok ()
  else do
    let spent ← spentValue lookup 0 0 tx.inputs
    match tx.totalOutput with
    | none => .error .outputOverflow
    | some created => if spent < created then .error (.overspent created spent) else .ok ()

/-- The transaction keeps the rules. -/
def verify (rules : Rules) (lookup : OutputLookup) (tx : Tx) : Except TxFault Unit := do
  tx.verifyStructure
  tx.verifyScripts rules lookup
  tx.verifyAmounts lookup

end Tx

end UtxoChain
