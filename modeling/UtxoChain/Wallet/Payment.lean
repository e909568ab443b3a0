import UtxoChain.Tx.Basic

/-!
# Payments

A payment is put together from outputs that keys can sign for. What its inputs bring beyond what its
outputs take goes to a change output. An input that is refused leaves the payment as it was.
-/

namespace UtxoChain

/-- A payment that is being put together. -/
structure Payment where
  /-- The script of the change output. -/
  changeScript : Script
  /-- The inputs so far. -/
  inputs : List TxIn
  /-- The outputs so far, without the change. -/
  outputs : List TxOut
  /-- The value that the inputs bring. -/
  inputAmount : UInt64
  /-- The absolute lock. -/
  lockAbs : UInt32
deriving DecidableEq, Inhabited

namespace Payment

/-- The version of the transactions that are built. -/
def txVersion : UInt8 := 0

/-- The payment without inputs and outputs. -/
def start (changeScript : Script) : Payment :=
  ⟨changeScript, [], [], 0, 0⟩

/-- Spends an output, which must be known and locked to the hash of a key. -/
def addInput (lookup : OutputLookup) (point : OutPoint) : EStateM BuildFault Payment Unit := do
  match lookup point with
  | none => throw (.unknownOutput point)
  | some spent =>
    if spent.script.signingHash?.isNone then throw (.notPubKeyHash point)
    else
      match checkedAdd (← get).inputAmount spent.value with
      | none => throw .inputOverflow
      | some inputAmount =>
        modify fun payment =>
          { payment with inputAmount, inputs := payment.inputs ++ [⟨point, .empty, 0⟩] }

/-- The payment with one more output. -/
def addOutput (payment : Payment) (output : TxOut) : Payment :=
  { payment with outputs := payment.outputs ++ [output] }

/-- The payment with an absolute lock. -/
def withLockAbs (payment : Payment) (lockAbs : UInt32) : Payment :=
  { payment with lockAbs }

/-- The outputs of a payment whose own outputs take `spent`, with the change if there is any. -/
def outputsWithChange (payment : Payment) (spent : UInt64) : List TxOut :=
  let change := payment.inputAmount - spent
  if change = 0 then payment.outputs else payment.outputs ++ [⟨change, payment.changeScript⟩]

/-- The transaction of a payment, without signatures. -/
def build (payment : Payment) : Except BuildFault Tx :=
  if payment.inputs.isEmpty then .error .noInputs
  else
    match TxOut.total payment.outputs with
    | none => .error .outputOverflow
    | some spent =>
      if payment.inputAmount < spent then
        .error (.insufficientFunds payment.inputAmount spent)
      else .ok ⟨txVersion, payment.inputs, payment.outputsWithChange spent, payment.lockAbs⟩

end Payment

end UtxoChain
