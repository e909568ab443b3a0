import UtxoChain.Machine.State

/-!
# Signatures and locks of the script machine

The opcodes that look at the transaction. Each of them asks for the transaction before it looks at
anything else. A multiple signature check holds if the signatures belong to some of the keys, in the
same order: each signature takes the first key after those taken before that verifies it.
-/

namespace UtxoChain.Machine

/-- The transaction input, which the opcode needs. -/
def Env.contextFor (env : Env) (op : Opcode) : Except ScriptFailure Context :=
  match env.context with
  | some context => .ok context
  | none => .error (.noTxContext (.noTransaction op))

/-- The signature is valid for the transaction input under the key. -/
def checkSignature (env : Env) (signature key : Bytes) : Except ScriptFailure Bool := do
  let context ← env.contextFor .checkSig
  match TxSignature.ofBytes? signature, FixedBytes.ofBytes? key with
  | none, _ => .error (.invalidSignature signature.length)
  | some _, none => .error .invalidPubKey
  | some signature, some key =>
    let request : SighashRequest :=
      ⟨context.inputIndex, env.scriptCode, context.amount, signature.hashType⟩
    match context.cache.sighashOf request with
    | .error missing => .error (.noTxContext (.noSighash missing))
    | .ok digest => .ok (context.scheme.verify digest signature.signature key)

/-- The signatures belong to some of the keys, in the same order. -/
def matchSignatures (check : Bytes → Bytes → Except ScriptFailure Bool) :
    List Bytes → List Bytes → Except ScriptFailure Bool
  | [], _ => .ok true
  | _ :: _, [] => .ok false
  | signature :: signatures, key :: keys => do
    if ← check signature key then matchSignatures check signatures keys
    else matchSignatures check (signature :: signatures) keys

/-- The outcome of a check that does not change the state. -/
def decided {α : Type} : Except ScriptFailure α → Step α
  | .ok value => pure value
  | .error failure => throw failure

/-- Takes a key and a signature off and checks them. -/
def popSignatureCheck (env : Env) : Step Bool := do
  let key ← pop
  let signature ← pop
  decided (checkSignature env signature key)

/-- Takes a number of keys, the keys, a number of signatures and the signatures off, the last of each
list on top, and checks them. -/
def popMultiSignatureCheck (env : Env) : Step Bool := do
  let keyCount ← popIndex
  if maxMultiSigKeys < keyCount then throw .invalidRange
  else
    let keys ← popMany keyCount
    let signatureCount ← popIndex
    if keyCount < signatureCount then throw .invalidRange
    else
      let signatures ← popMany signatureCount
      decided (matchSignatures (checkSignature env) signatures.reverse keys.reverse)

/-- The lock that the top item demands. -/
def peekLock : Step Nat := do
  readNumber (ScriptNumber.decode (← peek 0) >>= ScriptNumber.toWord .word64)

/-- The lock of the transaction reaches the one demanded. -/
def checkLock (required actual : Nat) : Step Unit :=
  if actual < required then throw (.lockNotSatisfied required actual) else pure ()

/-- The absolute lock of the transaction reaches the one demanded by the top item. -/
def checkLockAbs (env : Env) : Step Unit := do
  let context ← decided (env.contextFor .checkLockAbsVerify)
  checkLock (← peekLock) context.cache.tx.lockAbs.toNat

/-- The relative lock of the input reaches the one demanded by the top item. -/
def checkLockRel (env : Env) : Step Unit := do
  let context ← decided (env.contextFor .checkLockRelVerify)
  let required ← peekLock
  match context.cache.tx.inputs[context.inputIndex]? with
  | none => throw (.noTxContext .noRelativeLock)
  | some input => checkLock required input.lockRel.toNat

end UtxoChain.Machine
