import UtxoChain.Proofs.Wallet.Signing

/-!
# Signing again

A signer replaces the scripts of some inputs and nothing else. Which inputs these are, and what their
new scripts are, does not depend on the scripts that they had, as long as none of these spends an
expired output. So the signed transaction, and any other that differs in these scripts only, is signed
with the same result as the first (`Signer.sign_eq_of_refilled`), and signing again changes nothing
(`Signer.sign_stable`).

The scripts can also be collected first, each with the position of its input, and then filled in
(`Signer.sign_eq_map_collectScripts`).
-/

namespace UtxoChain

/-! ## Two pushes -/

namespace Script

/-- A script of two pushes does not spend an expired output. -/
theorem isExpiredInput_eq_false_of_isPubKeyHashInput {script : Script}
    (h : script.isPubKeyHashInput = true) : script.isExpiredInput = false := by
  unfold isPubKeyHashInput at h
  split at h
  · rename_i hChunks
    unfold isExpiredInput
    rw [hChunks]
  · exact absurd h Bool.false_ne_true

end Script

namespace Signer

variable {signer : Signer}

section

variable {cache other : DigestCache}

/-- The script of an input depends on its outpoint and on the digests of the transaction. -/
theorem inputScript_congr (hDigests : cache.sighashOf = other.sighashOf) {input otherInput : TxIn}
    (hPoint : input.point = otherInput.point) (index : Nat) :
    signer.inputScript cache index input = signer.inputScript other index otherInput := by
  unfold inputScript
  rw [hPoint, hDigests]

/-- An input is signed as it is with another script that does not spend an expired output. -/
theorem signInput_eq_of_refilled (hDigests : cache.sighashOf = other.sighashOf)
    {input otherInput : TxIn} (h : input.Refilled (fun script => script.isExpiredInput = false)
      otherInput) (index : Nat) :
    signer.signInput other index otherInput = signer.signInput cache index input := by
  unfold signInput
  cases h with
  | kept hKept => rw [if_pos hKept, if_pos hKept]
  | @filled script hFilled hScript =>
    have hSame : signer.inputScript other index { input with script } =
        signer.inputScript cache index input := inputScript_congr hDigests.symm rfl index
    -- The new script is not one for an expired output, so the input is again one that is signed.
    have hAgain : (TxIn.isMint { input with script } || TxIn.isExpired { input with script }) =
        false := by
      rw [Bool.or_eq_false_iff] at hFilled ⊢
      exact ⟨hFilled.1, hScript⟩
    rw [hFilled, hAgain, hSame]
    rfl

/-- Inputs are signed as they are with other scripts that do not spend expired outputs. -/
theorem signInputs_eq_of_refilled (hDigests : cache.sighashOf = other.sighashOf)
    {inputs otherInputs : List TxIn} (h : List.Forall₂
      (TxIn.Refilled fun script => script.isExpiredInput = false) inputs otherInputs) (start : Nat) :
    signer.signInputs other start otherInputs = signer.signInputs cache start inputs := by
  induction h generalizing start with
  | nil => rfl
  | cons hInput _ ih =>
    rw [signInputs, signInputs, signInput_eq_of_refilled hDigests hInput, ih]

end

/-! ## Collecting first -/

/-- The scripts of the inputs that need one, each with the position of its input. The first of the
inputs has the given position. -/
def collectScripts (signer : Signer) (cache : DigestCache) :
    Nat → List TxIn → Except Error (List (Nat × Script))
  | _, [] => return []
  | index, input :: rest => do
    if input.isMint || input.isExpired then signer.collectScripts cache (index + 1) rest
    else
      let script ← signer.inputScript cache index input
      let others ← signer.collectScripts cache (index + 1) rest
      return (index, script) :: others

/-- Inputs, with scripts filled in at the given positions one after the other. -/
def fillScripts (inputs : List TxIn) : List (Nat × Script) → List TxIn
  | [] => inputs
  | (index, script) :: rest =>
    fillScripts (inputs.modify index fun input => { input with script }) rest

/-- Filling in collected scripts signs the inputs, behind those that went before. -/
theorem map_signInputs_eq_map_collectScripts (signer : Signer) (cache : DigestCache)
    (before inputs : List TxIn) :
    (before ++ ·) <$> signer.signInputs cache before.length inputs =
      fillScripts (before ++ inputs) <$> signer.collectScripts cache before.length inputs := by
  induction inputs generalizing before with
  | nil => rfl
  | cons input inputs ih =>
    -- An input that is done joins those before it, so that the next one stands behind them.
    have hNext : ∀ done : TxIn,
        (before ++ done :: ·) <$> signer.signInputs cache (before.length + 1) inputs =
          fillScripts (before ++ done :: inputs) <$>
            signer.collectScripts cache (before.length + 1) inputs := by
      intro done
      have hDone := ih (before ++ [done])
      simpa using hDone
    rw [signInputs, collectScripts, signInput]
    cases input.isMint || input.isExpired with
    | true =>
      simp only [if_true, pure_bind, bind_pure_comp, Functor.map_map]
      exact hNext input
    | false =>
      simp only [Bool.false_eq_true, if_false, bind_pure_comp, bind_map_left, map_bind,
        Functor.map_map]
      refine bind_congr fun script => ?_
      have hModify : (before ++ input :: inputs).modify before.length
          (fun input => { input with script }) = before ++ { input with script } :: inputs :=
        List.modifyTailIdx_add _ 0 before (input :: inputs)
      simp only [fillScripts, hModify]
      exact hNext { input with script }

/-- A transaction is signed by collecting the scripts of its inputs off a cache of its digests, and
filling them in at their positions. -/
theorem sign_eq_map_collectScripts (tx : Tx) :
    signer.sign tx = (fun scripts => { tx with inputs := fillScripts tx.inputs scripts }) <$>
      signer.collectScripts (DigestCache.ofTx tx).fillAll 0 tx.inputs := by
  have hInputs : signer.signInputs (DigestCache.ofTx tx).fillAll 0 tx.inputs =
      fillScripts tx.inputs <$> signer.collectScripts (DigestCache.ofTx tx).fillAll 0 tx.inputs := by
    have hAll := map_signInputs_eq_map_collectScripts signer (DigestCache.ofTx tx).fillAll [] tx.inputs
    simpa using hAll
  unfold sign
  dsimp only
  rw [hInputs, bind_pure_comp, Functor.map_map]

/-! ## The signed transaction -/

/-- A transaction is signed as it is with other scripts that do not spend expired outputs, and fails to
be as it does with them. -/
theorem sign_eq_of_refilled {tx other : Tx}
    (h : tx.Refilled (fun script => script.isExpiredInput = false) other) :
    signer.sign other = signer.sign tx := by
  have hDigests : (DigestCache.ofTx tx).fillAll.sighashOf =
      (DigestCache.ofTx other).fillAll.sighashOf :=
    Tx.sighashOf_eq_of_withoutScripts_eq (DigestCache.faithful_fillAll_ofTx tx)
      (DigestCache.faithful_fillAll_ofTx other) h.withoutScripts_eq.symm
  unfold sign
  dsimp only
  rw [signInputs_eq_of_refilled hDigests h.inputs, h.eq_with_inputs]

/-- Signing changes only what it must, and signing again changes nothing. In the signed transaction the
inputs that are neither the sentinel nor spend an expired output have scripts of two pushes, and all
else is as it was. Signing it gives it back, and so does signing any transaction that differs from the
unsigned one in such scripts only, none of which spends an expired output. -/
theorem sign_stable (signer : Signer) (tx signed : Tx) (hSign : signer.sign tx = .ok signed) :
    tx.Refilled (fun script => script.isPubKeyHashInput = true) signed ∧
      signer.sign signed = .ok signed ∧
      ∀ other : Tx, tx.Refilled (fun script => script.isExpiredInput = false) other →
        signer.sign other = .ok signed := by
  have hFrame := refilled_of_sign hSign
  have hOther : ∀ other : Tx, tx.Refilled (fun script => script.isExpiredInput = false) other →
      signer.sign other = .ok signed := fun other h => (sign_eq_of_refilled h).trans hSign
  -- A script of two pushes is one that the signer replaces again.
  have hAgain := hFrame.mono fun _ => Script.isExpiredInput_eq_false_of_isPubKeyHashInput
  exact ⟨hFrame, hOther signed hAgain, hOther⟩

end Signer

namespace Sample

/-! ## A transaction that is signed again

Before each of the two inputs that are signed stands one that is kept. -/

/-- The transaction, with a script in the inputs that are signed. -/
def mixed (script : Script) : Tx :=
  ⟨0, [.mint .empty, ⟨point, script, 0⟩, .expired ⟨FixedBytes.ofNat 1, 9⟩ 3, ⟨laterPoint, script, 0⟩],
    [⟨10, lock⟩], 0⟩

/-- The signed transaction is signed as it is, and so is the unsigned one with another script. -/
theorem exists_sign_mixed : ∃ signed, openSigner.sign (mixed .empty) = .ok signed ∧
    openSigner.sign signed = .ok signed ∧
    openSigner.sign (mixed ⟨[.ofOpcode .op1]⟩) = .ok signed := by
  have hIsSigned : (openSigner.sign (mixed .empty)).toOption.isSome = true := by decide +kernel
  cases hSign : openSigner.sign (mixed .empty) with
  | error fault => simp [hSign, Except.toOption] at hIsSigned
  | ok signed =>
    have hRefilled : (mixed .empty).Refilled (fun script => script.isExpiredInput = false)
        (mixed ⟨[.ofOpcode .op1]⟩) := by
      refine ⟨rfl, .cons (.kept ?_) (.cons (.filled ?_ ?_) (.cons (.kept ?_)
        (.cons (.filled ?_ ?_) .nil)))⟩ <;> decide +kernel
    obtain ⟨-, hAgain, hOther⟩ := Signer.sign_stable openSigner (mixed .empty) signed hSign
    exact ⟨signed, rfl, hAgain, hOther _ hRefilled⟩

end Sample

end UtxoChain
