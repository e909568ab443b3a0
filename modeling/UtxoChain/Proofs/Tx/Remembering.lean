import UtxoChain.Proofs.Tx.Signing

/-!
# Asking a cache

A question to a cache is answered as the transaction answers it, if that holds from every faithful cache
of the transaction and the question leaves one behind (`DigestCache.Answers`). Questions that are
answered so may be asked in any order and number: what one of them remembers changes no later answer
(`DigestCache.mapM_remembered_ofTx`).
-/

namespace UtxoChain.DigestCache

/-- The cache is one of the transaction, and what it remembers is right. -/
structure Serves (tx : Tx) (cache : DigestCache) : Prop where
  /-- The cache is one of the transaction. -/
  tx_eq : cache.tx = tx
  /-- Every remembered digest is the one of the transaction. -/
  faithful : cache.Faithful

variable {tx : Tx} {cache : DigestCache}

/-- A new cache serves its transaction. -/
theorem serves_ofTx (tx : Tx) : (ofTx tx).Serves tx :=
  ⟨rfl, faithful_ofTx tx⟩

/-- A cache with every cell filled serves its transaction. -/
theorem serves_fillAll_ofTx (tx : Tx) : (ofTx tx).fillAll.Serves tx :=
  ⟨rfl, faithful_fillAll_ofTx tx⟩

/-- A cache serves its transaction with one more cell filled. -/
theorem Serves.fill (h : cache.Serves tx) (part : SubHash) : (cache.fill part).Serves tx := by
  refine ⟨?_, h.faithful.fill part⟩
  rw [tx_fill]
  exact h.tx_eq

/-- A cache serves its transaction with some more cells filled. -/
theorem Serves.foldl_fill (h : cache.Serves tx) (parts : List SubHash) :
    (parts.foldl DigestCache.fill cache).Serves tx := by
  induction parts generalizing cache with
  | nil => exact h
  | cons part parts ih => exact ih (h.fill part)

/-- A cache gives the digests of the transaction that it serves. -/
theorem Serves.subHash_eq (h : cache.Serves tx) (part : SubHash) :
    cache.subHash part = tx.subHash part := by
  rw [h.faithful.subHash_eq, h.tx_eq]

/-- A cache gives the preimages of the transaction that it serves. -/
theorem Serves.preimageOf_eq (h : cache.Serves tx) (request : SighashRequest) :
    cache.preimageOf request = tx.preimage request := by
  have hSame : cache.subHash = tx.subHash := funext h.subHash_eq
  unfold preimageOf Tx.preimage
  rw [hSame, h.tx_eq]

/-- A cache gives the digests to sign of the transaction that it serves. -/
theorem Serves.sighashOf_eq (h : cache.Serves tx) (request : SighashRequest) :
    cache.sighashOf request = tx.sighash request := by
  rw [h.faithful.sighashOf_eq, h.tx_eq]

/-! ## Answers -/

section

variable {α β ε : Type}

/-- Every cache that serves the transaction gives the answer, and serves it afterwards. -/
def Answers (tx : Tx) (question : StateM DigestCache α) (answer : α) : Prop :=
  ∀ cache, cache.Serves tx →
    ∃ after, question cache = (answer, after) ∧ after.Serves tx

/-- What asks nothing is answered. -/
theorem answers_pure (answer : α) : Answers tx (pure answer) answer :=
  fun cache h => ⟨cache, rfl, h⟩

/-- Two questions in a row are answered if both are. -/
theorem Answers.bind {question : StateM DigestCache α} {next : α → StateM DigestCache β} {a : α}
    {b : β} (h : Answers tx question a) (hNext : Answers tx (next a) b) :
    Answers tx (question >>= next) b := by
  intro cache hCache
  obtain ⟨middle, hAsked, hMiddle⟩ := h cache hCache
  obtain ⟨after, hAnswer, hAfter⟩ := hNext middle hMiddle
  refine ⟨after, ?_, hAfter⟩
  change next (question cache).1 (question cache).2 = _
  rw [hAsked]
  exact hAnswer

/-- A question that looks at the cache is answered if it is whatever the cache. -/
theorem Answers.get_bind {next : DigestCache → StateM DigestCache α} {answer : α}
    (h : ∀ cache, cache.Serves tx → Answers tx (next cache) answer) :
    Answers tx (get >>= next) answer :=
  fun cache hCache => h cache hCache cache hCache

/-! ## The questions -/

/-- A digest is that of the transaction. -/
theorem answers_fetch (part : SubHash) : Answers tx (fetch part) (tx.subHash part) := by
  intro cache h
  refine ⟨cache.fill part, ?_, h.fill part⟩
  change ((cache.fill part).subHash part, cache.fill part) = _
  rw [(h.fill part).subHash_eq]

/-- A preimage is that of the transaction, whichever cells it fills. -/
theorem answers_preimage (request : SighashRequest) :
    Answers tx (preimage request) (tx.preimage request) := by
  intro cache h
  have hFilled : (if request.inputIndex < cache.tx.inputs.length then
      request.subHashes.foldl DigestCache.fill cache else cache).Serves tx := by
    split_ifs
    · exact h.foldl_fill request.subHashes
    · exact h
  refine ⟨_, ?_, hFilled⟩
  rw [← hFilled.preimageOf_eq request]
  rfl

/-- A digest to sign is that of the transaction. -/
theorem answers_sighash (request : SighashRequest) :
    Answers tx (sighash request) (tx.sighash request) :=
  (answers_preimage request).bind (answers_pure _)

/-- A signature is that of the transaction. -/
theorem answers_sign (scheme : SignatureScheme) (secret : SecretKey) (request : SighashRequest) :
    Answers tx (sign scheme secret request) (tx.sign scheme secret request) := by
  refine (answers_sighash request).bind ?_
  unfold Tx.sign
  cases tx.sighash request with
  | error missing => exact answers_pure _
  | ok digest =>
    have hSign : (scheme.sign digest secret).map (fun signature => ⟨request.hashType, signature⟩) =
        (do return ⟨request.hashType, ← scheme.sign digest secret⟩ : Except Error TxSignature) := by
      cases scheme.sign digest secret with
      | error fault => rfl
      | ok signature => rfl
    dsimp only
    rw [hSign]
    exact answers_pure _

/-- A signature is valid for the cache if it is for the transaction. -/
theorem answers_verifySignature (scheme : SignatureScheme) (key : PublicKey)
    (signature : CompactSignature) (request : SighashRequest) :
    Answers tx (verifySignature scheme key signature request)
      (tx.verifySignature scheme key signature request) := by
  refine (answers_sighash request).bind ?_
  unfold Tx.verifySignature
  cases tx.sighash request with
  | error missing => exact answers_pure _
  | ok digest => exact answers_pure _

end

/-! ## Rows of questions -/

/-- A question to a cache, or to its transaction. -/
inductive Call
  /-- One of the digests over the whole transaction. -/
  | digest (part : SubHash)
  /-- The bytes whose double hash is signed. -/
  | preimage (request : SighashRequest)
  /-- The digest that is signed. -/
  | sighash (request : SighashRequest)
  /-- The signature of a request. -/
  | sign (scheme : SignatureScheme) (secret : SecretKey) (request : SighashRequest)
  /-- Whether a signature is valid for a request. -/
  | verify (scheme : SignatureScheme) (key : PublicKey) (signature : CompactSignature)
    (request : SighashRequest)

/-- The answer to a call. -/
inductive Answer
  /-- A digest over the whole transaction. -/
  | digest (digest : Hash256)
  /-- The bytes, or that the input is not there. -/
  | preimage (bytes : Except MissingInput Bytes)
  /-- The digest that is signed, or that the input is not there. -/
  | sighash (digest : Except MissingInput Hash256)
  /-- The signature, or why there is none. -/
  | signature (signature : Except Error TxSignature)
  /-- The verdict, or that the input is not there. -/
  | verdict (valid : Except MissingInput Bool)

namespace Call

/-- The answer of a cache, which remembers what it had to compute. -/
def remembered : Call → StateM DigestCache Answer
  | digest part => return .digest (← DigestCache.fetch part)
  | preimage request => return .preimage (← DigestCache.preimage request)
  | sighash request => return .sighash (← DigestCache.sighash request)
  | sign scheme secret request => return .signature (← DigestCache.sign scheme secret request)
  | verify scheme key signature request =>
    return .verdict (← DigestCache.verifySignature scheme key signature request)

/-- The answer of the transaction. -/
def direct (tx : Tx) : Call → Answer
  | digest part => .digest (tx.subHash part)
  | preimage request => .preimage (tx.preimage request)
  | sighash request => .sighash (tx.sighash request)
  | sign scheme secret request => .signature (tx.sign scheme secret request)
  | verify scheme key signature request =>
    .verdict (tx.verifySignature scheme key signature request)

/-- A cache answers a call as its transaction does. -/
theorem answers_remembered (call : Call) : Answers tx call.remembered (call.direct tx) := by
  cases call with
  | digest part => exact (answers_fetch part).bind (answers_pure _)
  | preimage request => exact (answers_preimage request).bind (answers_pure _)
  | sighash request => exact (answers_sighash request).bind (answers_pure _)
  | sign scheme secret request => exact (answers_sign scheme secret request).bind (answers_pure _)
  | verify scheme key signature request =>
    exact (answers_verifySignature scheme key signature request).bind (answers_pure _)

end Call

/-- A cache answers calls one after the other as its transaction does. -/
theorem answers_mapM_remembered (calls : List Call) :
    Answers tx (calls.mapM Call.remembered) (calls.map (Call.direct tx)) := by
  induction calls with
  | nil => exact answers_pure []
  | cons call calls ih =>
    rw [List.mapM_cons]
    exact call.answers_remembered.bind (ih.bind (answers_pure _))

/-- A new cache answers calls one after the other as its transaction does. -/
theorem mapM_remembered_ofTx (tx : Tx) (calls : List Call) :
    (calls.mapM Call.remembered (ofTx tx)).1 = calls.map (Call.direct tx) := by
  obtain ⟨after, hAnswers, -⟩ := answers_mapM_remembered calls (ofTx tx) (serves_ofTx tx)
  rw [hAnswers]

end UtxoChain.DigestCache
