import UtxoChain.Proofs.Verdict
import UtxoChain.Tx.DigestCache

/-!
# Signatures and remembered digests

A cache is faithful if every digest that it remembers is the one of its transaction. Caches are made
empty and filled by computing, so each is; what is read off a faithful cache is what the transaction
gives.
-/

namespace UtxoChain

/-- A byte string is read as the signature that has its bytes. -/
theorem TxSignature.ofBytes?_eq_some_iff {bytes : Bytes} {signature : TxSignature} :
    ofBytes? bytes = some signature ↔ bytes = signature.toBytes := by
  obtain ⟨⟨type⟩, compact⟩ := signature
  unfold ofBytes? toBytes
  cases bytes with
  | nil => simp
  | cons first rest =>
    simp [FixedBytes.ofBytes?_eq_some_iff, and_comm]

namespace DigestCache

/-- Every remembered digest is the one of the transaction. -/
def Faithful (cache : DigestCache) : Prop :=
  ∀ part digest, cache.known? part = some digest → digest = cache.tx.subHash part

/-- A cache that knows nothing is faithful. -/
theorem faithful_ofTx (tx : Tx) : (ofTx tx).Faithful := by
  intro part digest h
  cases part <;> simp [ofTx, known?] at h

/-- Filling a cell keeps the transaction. -/
@[simp]
theorem tx_fill (cache : DigestCache) (part : SubHash) : (cache.fill part).tx = cache.tx := by
  cases part <;> rfl

/-- A faithful cache gives the digests of its transaction. -/
theorem Faithful.subHash_eq {cache : DigestCache} (h : cache.Faithful) (part : SubHash) :
    cache.subHash part = cache.tx.subHash part := by
  unfold subHash
  cases hKnown : cache.known? part with
  | none => rfl
  | some digest => exact h part digest hKnown

/-- Filling a cell of a faithful cache leaves a faithful one. -/
theorem Faithful.fill {cache : DigestCache} (h : cache.Faithful) (filled : SubHash) :
    (cache.fill filled).Faithful := by
  have hFilled := h.subHash_eq filled
  intro part digest hKnown
  rw [tx_fill]
  -- A cell other than the filled one is as before.
  cases filled <;> cases part <;> try exact h _ digest hKnown
  all_goals
    rw [← hFilled]
    exact (Option.some.inj hKnown).symm

/-- The cache that a verification makes is faithful. -/
theorem faithful_fillAll_ofTx (tx : Tx) : (ofTx tx).fillAll.Faithful :=
  (((faithful_ofTx tx).fill .prevouts).fill .lockRels).fill .outputs

/-- The digest that is signed is the same off a faithful cache as off the transaction. -/
theorem Faithful.sighashOf_eq {cache : DigestCache} (h : cache.Faithful)
    (request : SighashRequest) : cache.sighashOf request = cache.tx.sighash request := by
  have hSame : cache.subHash = cache.tx.subHash := funext h.subHash_eq
  unfold sighashOf preimageOf Tx.sighash Tx.preimage
  rw [hSame]

end DigestCache

end UtxoChain
