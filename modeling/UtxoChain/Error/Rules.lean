import UtxoChain.Error.Script
import UtxoChain.Tx.OutPoint

/-!
# Violations of the rules

The causes for which parameters, transactions, headers and blocks are rejected, and for which a
payment cannot be put together or signed.
-/

namespace UtxoChain

/-- Why parameters cannot be used. -/
inductive ParamsFault
  /-- A period of zero blocks or zero seconds. -/
  | zeroPeriod
  /-- Four adjustment periods do not fit 64 bits. -/
  | intervalOverflow
  /-- The text is not a JSON document of parameters. -/
  | unparsable
  /-- The file could not be read. -/
  | unreadable (path reason : String)
deriving DecidableEq

/-- The wording of a fault of parameters. -/
def ParamsFault.message : ParamsFault → String
  | .zeroPeriod =>
    "config error: blocks_per_adjustment and block_interval_seconds must be positive"
  | .intervalOverflow => "config error: adjustment interval overflows"
  | .unparsable => "config error: failed to parse params"
  | .unreadable path reason => "config error: failed to read " ++ path ++ ": " ++ reason

/-- Why a header has no place after its predecessor. -/
inductive LinkFault
  /-- The predecessor has the last index there is. -/
  | indexOverflow
  /-- The target changes at this index, and the header that opened the period is not given. -/
  | adjustmentMissing (index : UInt64)
  /-- The header that is given did not open the period ending at this index. -/
  | adjustmentMismatch (adjustment index : UInt64)
deriving DecidableEq

/-- The wording of a fault of link. -/
def LinkFault.message : LinkFault → String
  | .indexOverflow => "index overflow"
  | .adjustmentMissing index => s!"index {index.toNat} needs the previous adjustment header"
  | .adjustmentMismatch adjustment index =>
    s!"adjustment header index {adjustment.toNat} does not match period ending at {index.toNat}"

/-- Why no successor of a header can be proposed. -/
inductive RetargetFault
  /-- The parameters cannot be used. -/
  | params (fault : ParamsFault)
  /-- The successor has no place after its predecessor. -/
  | link (fault : LinkFault)
  /-- The new target does not fit 256 bits. -/
  | targetTooLarge
deriving DecidableEq

/-- The wording of a fault of retargeting. -/
def RetargetFault.message : RetargetFault → String
  | .params fault => fault.message
  | .link fault => "invalid header: " ++ fault.message
  | .targetTooLarge => PrecisionFault.target.message

/-- Why a header is rejected. -/
inductive HeaderFault
  /-- The digest is not below the target. -/
  | aboveTarget (digest target : Hash256)
  /-- Only the first header of a chain has no predecessor. -/
  | missingPrevious
  /-- The header names another predecessor. -/
  | previousId (found expected : Hash256)
  /-- The index is not that of the successor. -/
  | index (found previous : UInt64)
  /-- The timestamp lies before that of the predecessor. -/
  | timestamp (found previous : UInt64)
  /-- No target can be computed to compare with. -/
  | noTarget (fault : RetargetFault)
  /-- The target is not the one that the predecessors demand. -/
  | target (found expected : Hash256)
  /-- The header has no place after its predecessor. -/
  | link (fault : LinkFault)
deriving DecidableEq

/-- The wording of a fault of header. -/
def HeaderFault.message : HeaderFault → String
  | .aboveTarget digest bound => s!"hash {digest} does not meet target {bound}"
  | .missingPrevious => "missing previous header"
  | .previousId found expected => s!"previous id {found} does not match {expected}"
  | .index found previous => s!"index {found.toNat} does not follow {previous.toNat}"
  | .timestamp found previous => s!"timestamp {found.toNat} precedes previous {previous.toNat}"
  | .noTarget fault => fault.message
  | .target found expected => s!"target {found} expected {expected}"
  | .link fault => fault.message

/-- Why a transaction is rejected. -/
inductive TxFault
  /-- The transaction spends nothing. -/
  | noInputs
  /-- The transaction creates nothing. -/
  | noOutputs
  /-- The output values together exceed 64 bits. -/
  | outputOverflow
  /-- Two inputs name one outpoint. -/
  | duplicateInput (point : OutPoint)
  /-- The mint sentinel stands in a transaction that does not mint. -/
  | strayMint
  /-- There is no input at the position. -/
  | noInput (index : Nat)
  /-- No output is known under the outpoint of an input. -/
  | unknownOutput (index : Nat) (point : OutPoint)
  /-- The spent values together exceed 64 bits. -/
  | inputOverflow
  /-- More value is created than spent. -/
  | overspent (outputs inputs : UInt64)
  /-- The outpoint is already spent by the block. -/
  | spentInBlock (point : OutPoint)
  /-- A signature was asked for an input that is not there. -/
  | missingInput (missing : MissingInput)
  /-- The scripts of an input did not succeed. -/
  | script (index : Nat) (reason : ScriptFailure)
deriving DecidableEq

/-- The wording of a fault of transaction, apart from its position. -/
def TxFault.message : TxFault → String
  | .noInputs => "no inputs"
  | .noOutputs => "no outputs"
  | .outputOverflow => "output value overflows"
  | .duplicateInput point => s!"duplicate input {point}"
  | .strayMint => "mint input outside a mint transaction"
  | .noInput index => s!"no input {index}"
  | .unknownOutput index point => s!"input {index} spends unknown output {point}"
  | .inputOverflow => "input value overflows"
  | .overspent outputs inputs => s!"outputs {outputs.toNat} exceed inputs {inputs.toNat}"
  | .spentInBlock point => s!"output {point} already spent in this block"
  | .missingInput missing => missing.reason
  | .script index reason => s!"input {index}: " ++ reason.message

/-- Why a block is rejected for its frame. -/
inductive BlockFault
  /-- The block has no transactions. -/
  | noTransactions
  /-- The first transaction does not mint. -/
  | firstNotMint
  /-- The mint input does not push the index of the block. -/
  | mintIndex (index : UInt64)
  /-- A later transaction mints too. -/
  | extraMint (position : Nat)
  /-- The header commits to other transactions. -/
  | merkleRoot (found expected : Hash256)
deriving DecidableEq

/-- The wording of a fault of block. -/
def BlockFault.message : BlockFault → String
  | .noTransactions => "no transactions"
  | .firstNotMint => "first transaction is not a mint"
  | .mintIndex index => s!"mint input does not push block index {index.toNat}"
  | .extraMint position => s!"extra mint transaction at {position}"
  | .merkleRoot found expected => s!"merkle root {found} expected {expected}"

/-- Why a header, a block or a transaction of a block is rejected. -/
inductive Rejection
  /-- The header breaks a rule. -/
  | header (fault : HeaderFault)
  /-- The frame of the block breaks a rule. -/
  | block (fault : BlockFault)
  /-- The transaction at the position breaks a rule. -/
  | tx (position : Nat) (fault : TxFault)
deriving DecidableEq

/-- The wording of a rejection. -/
def Rejection.message : Rejection → String
  | .header fault => "invalid header: " ++ fault.message
  | .block fault => "invalid block: " ++ fault.message
  | .tx position (.script index reason) =>
    s!"script failed in transaction {position} input {index}: " ++ reason.message
  | .tx position fault => s!"invalid transaction {position}: " ++ fault.message

/-- Why a payment cannot be put together or signed. -/
inductive BuildFault
  /-- No output is known under the outpoint. -/
  | unknownOutput (point : OutPoint)
  /-- The output is not locked to the hash of a public key. -/
  | notPubKeyHash (point : OutPoint)
  /-- The values of the inputs together exceed 64 bits. -/
  | inputOverflow
  /-- The payment has no inputs. -/
  | noInputs
  /-- The values of the outputs together exceed 64 bits. -/
  | outputOverflow
  /-- The inputs do not cover the outputs. -/
  | insufficientFunds (available needed : UInt64)
  /-- The input at the position spends an output that no key can sign for. -/
  | unsignable (index : Nat)
  /-- No key is known for the hash. -/
  | noKey (pubKeyHash : Hash256)
deriving DecidableEq

/-- The wording of a fault of building. -/
def BuildFault.message : BuildFault → String
  | .unknownOutput point => s!"build error: unknown output {point}"
  | .notPubKeyHash point => s!"build error: output {point} is not a pay-to-pubkey-hash script"
  | .inputOverflow => "build error: input value overflows"
  | .noInputs => "build error: no inputs"
  | .outputOverflow => "build error: output value overflows"
  | .insufficientFunds available needed =>
    s!"build error: insufficient funds: have {available.toNat}, need {needed.toNat}"
  | .unsignable index => s!"build error: input {index} does not spend a PKH output"
  | .noKey pubKeyHash => s!"build error: no key for {pubKeyHash}"

end UtxoChain
