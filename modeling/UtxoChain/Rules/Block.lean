import UtxoChain.Rules.Header

/-!
# The rules for a block

After the header come the frame of the block and its transactions. The first transaction mints and
pushes the index of the block, no other mints, and the header commits to them all. Each transaction is
checked on its own against the outputs visible to it: those created by earlier transactions of the
block, and those of the given lookup that the block does not create. No outpoint is spent twice. The
fault that is reported is that of the first transaction that has one.
-/

namespace UtxoChain

/-- The outputs that a block creates, each with the position of its transaction, the last first. -/
abbrev CreatedOutputs := List (OutPoint × Nat × TxOut)

namespace Block

/-- The frame of a block: the mint transaction, its index, and the Merkle root. -/
def verifyFrame (block : Block) : Except BlockFault Unit :=
  match block.txs with
  | [] => .error .noTransactions
  | mint :: others =>
    let pushesIndex (input : TxIn) := input.script.startsWithBlockIndex block.header.index
    if !mint.isMint then .error .firstNotMint
    else if !(mint.inputs.head?.any pushesIndex) then .error (.mintIndex block.header.index)
    else
      match others.findIdx? Tx.isMint with
      | some position => .error (.extraMint (position + 1))
      | none =>
        if block.hasValidMerkleRoot then .ok ()
        else .error (.merkleRoot block.header.merkleRoot block.merkleRoot)

/-- The outputs that the transactions create. -/
def createdOutputs (txs : List Tx) : CreatedOutputs :=
  (txs.zipIdx.flatMap fun (tx, position) =>
    tx.created.map fun (point, output) => (point, position, output)).reverse

/-- The outputs visible to the transaction at a position. An outpoint that the block creates is
visible only after the last transaction that creates it. -/
def visibleAt (created : CreatedOutputs) (base : OutputLookup) (position : Nat) : OutputLookup :=
  fun point =>
    match created.lookup point with
    | some (creator, output) => if creator < position then some output else none
    | none => base point

/-- For each transaction the first of its outpoints that was spent before, by an earlier transaction
or by itself. -/
def doubleSpends (spent : List OutPoint) : List Tx → List (Option OutPoint)
  | [] => []
  | tx :: rest =>
    firstRepeat spent tx.spentPoints :: doubleSpends (tx.spentPoints.reverse ++ spent) rest

/-- The transactions from a position on keep the rules; with each comes its double spend, if it has
one. -/
def verifyTxs (rules : Rules) (visible : Nat → OutputLookup) :
    Nat → List (Tx × Option OutPoint) → Except Rejection Unit
  | _, [] => .ok ()
  | position, (tx, doubleSpend) :: rest => do
    match doubleSpend with
    | some point => .error (.tx position (.spentInBlock point))
    | none => (tx.verify rules (visible position)).mapError (.tx position)
    verifyTxs rules visible (position + 1) rest

/-- A block keeps the rules. -/
def verify (rules : Rules) (lookup : OutputLookup) (block : Block)
    (prev adjustment : Option BlockHeader) : Except Rejection Unit := do
  (block.header.verify rules.params prev adjustment).mapError .header
  block.verifyFrame.mapError .block
  let created := createdOutputs block.txs
  verifyTxs rules (visibleAt created lookup) 0 (block.txs.zip (doubleSpends [] block.txs))

end Block

end UtxoChain
