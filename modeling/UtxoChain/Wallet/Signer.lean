import UtxoChain.Tx.DigestCache
import UtxoChain.Wallet.KeyStore

/-!
# Signing

A signer fills in the scripts of the inputs whose outputs are locked to keys of a store. All
signatures are made of the transaction as it was given. The mint sentinel and the inputs that spend
expired outputs stay as they are.
-/

namespace UtxoChain

/-- What signing depends on. -/
structure Signer where
  /-- The outputs that may be spent. -/
  lookup : OutputLookup
  /-- The keys. -/
  keys : KeyStore
  /-- The scheme of the signatures. -/
  scheme : SignatureScheme
  /-- What the signatures commit to. -/
  hashType : SighashType

namespace Signer

/-- The script that unlocks the input at a position of the transaction of a cache. -/
def inputScript (signer : Signer) (cache : DigestCache) (index : Nat) (input : TxIn) :
    Except Error Script := do
  match signer.lookup input.point with
  | none => throw (.build (.unknownOutput input.point))
  | some spent =>
    match spent.script.signingHash? with
    | none => throw (.build (.unsignable index))
    | some hash =>
      match signer.keys.get? hash with
      | none => throw (.build (.noKey hash))
      | some pair =>
        let request : SighashRequest := ⟨index, spent.script.encode, spent.value, signer.hashType⟩
        let digest ← (cache.sighashOf request).mapError MissingInput.toError
        let signature ← signer.scheme.sign digest pair.secret
        Script.pubKeyHashInput (TxSignature.toBytes ⟨signer.hashType, signature⟩)
          pair.publicKey.toBytes

/-- An input with its script filled in, unless it needs none. -/
def signInput (signer : Signer) (cache : DigestCache) (index : Nat) (input : TxIn) :
    Except Error TxIn := do
  if input.isMint || input.isExpired then return input
  else return { input with script := ← signer.inputScript cache index input }

/-- Some inputs, the first of which has the given position, with their scripts filled in. -/
def signInputs (signer : Signer) (cache : DigestCache) : Nat → List TxIn → Except Error (List TxIn)
  | _, [] => return []
  | index, input :: rest => do
    let signed ← signer.signInput cache index input
    let others ← signInputs signer cache (index + 1) rest
    return signed :: others

/-- The transaction with the scripts of its inputs filled in. -/
def sign (signer : Signer) (tx : Tx) : Except Error Tx := do
  let cache := (DigestCache.ofTx tx).fillAll
  return { tx with inputs := ← signer.signInputs cache 0 tx.inputs }

end Signer

end UtxoChain
