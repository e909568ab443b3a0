import UtxoChain.Script.Template
import UtxoChain.Tx.OutPoint

/-!
# Transactions

A transaction spends outputs by its inputs and creates new outputs. An input names an outpoint and
brings the script that unlocks it; an output holds a value and the script that locks it. The first
input of a mint transaction is the sentinel, and its other inputs spend expired outputs.
-/

namespace UtxoChain

/-- An input: the output it spends, the script that unlocks it, and its relative lock. -/
structure TxIn where
  /-- The output that is spent. -/
  point : OutPoint
  /-- The script that unlocks it. -/
  script : Script
  /-- The relative lock, which a script may demand. -/
  lockRel : UInt32
deriving DecidableEq, Inhabited

namespace TxIn

/-- The sentinel input of a mint transaction. -/
def mint (script : Script) : TxIn :=
  ⟨OutPoint.mint, script, 0⟩

/-- The input that spends an expired output. -/
def expired (point : OutPoint) (lockRel : UInt32) : TxIn :=
  ⟨point, Script.expiredInput, lockRel⟩

/-- The input is the mint sentinel. -/
def isMint (input : TxIn) : Bool :=
  input.point.isMint

/-- The input spends an expired output. -/
def isExpired (input : TxIn) : Bool :=
  input.script.isExpiredInput

end TxIn

/-- An output: a value and the script that locks it. -/
structure TxOut where
  /-- The value. -/
  value : UInt64
  /-- The script that locks it. -/
  script : Script
deriving DecidableEq, Inhabited

/-- The sum of two values, if it fits 64 bits. -/
def checkedAdd (a b : UInt64) : Option UInt64 :=
  if a.toNat + b.toNat < UInt64.size then some (a + b) else none

/-- The sum of the values of some outputs, if no partial sum exceeds 64 bits. -/
def TxOut.total (outputs : List TxOut) : Option UInt64 :=
  outputs.foldlM (fun sum output => checkedAdd sum output.value) 0

/-- A transaction. -/
structure Tx where
  /-- The version of the format. -/
  version : UInt8
  /-- The outputs spent. -/
  inputs : List TxIn
  /-- The outputs created. -/
  outputs : List TxOut
  /-- The absolute lock, which a script may demand. -/
  lockAbs : UInt32
deriving DecidableEq, Inhabited

namespace Tx

/-- The transaction that mints: the sentinel, then inputs that spend expired outputs. -/
def mint (script : Script) (expired : List TxIn) (outputs : List TxOut) (lockAbs : UInt32) : Tx :=
  ⟨0, TxIn.mint script :: expired, outputs, lockAbs⟩

/-- The first input is the sentinel, and every other one spends an expired output. -/
def isMint (tx : Tx) : Bool :=
  match tx.inputs with
  | [] => false
  | first :: others => first.isMint && others.all fun input => input.isExpired && !input.isMint

/-- The sum of the output values, if it fits 64 bits. -/
def totalOutput (tx : Tx) : Option UInt64 :=
  TxOut.total tx.outputs

/-- The outpoints that the transaction spends; the sentinel is none. -/
def spentPoints (tx : Tx) : List OutPoint :=
  (tx.inputs.filter fun input => !input.isMint).map TxIn.point

end Tx

/-- Outputs by their outpoints: what is known to be spendable. -/
abbrev OutputLookup := OutPoint → Option TxOut

end UtxoChain
