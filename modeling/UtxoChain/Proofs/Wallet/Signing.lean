import UtxoChain.Proofs.Machine.Pushing
import UtxoChain.Proofs.Rules.ExpirableLock
import UtxoChain.Proofs.Tx.Preimage
import UtxoChain.Proofs.Wallet.Payment
import UtxoChain.Wallet.Signer

/-!
# What a signer signs is accepted

The signer and the rules each find the script, the value and the digest of an input on their own, the
signer in the unsigned transaction and the rules in the signed one. They find the same ones, since no
digest depends on an input script. So the script that the signer writes leaves a key and a signature
of the input, which open an output of either form. `Signer.verify_of_sign` says so of every input that
is signed, and of every payment as a whole.
-/

namespace UtxoChain

/-- Whatever a scheme signs is valid under the public key of the secret, which there is. -/
def SignatureScheme.Correct (scheme : SignatureScheme) : Prop :=
  ∀ digest secret signature, scheme.sign digest secret = .ok signature →
    ∃ key, scheme.publicKey secret = .ok key ∧ scheme.verify digest signature key = true

/-! ## Key stores -/

namespace KeyStore

variable {scheme : SignatureScheme} {store : KeyStore}

/-- A store that is filled with the pairs of secrets, given or drawn. A secret that is refused leaves
the store as it is. -/
inductive Filled (scheme : SignatureScheme) : KeyStore → Prop
  /-- The store without keys. -/
  | empty : Filled scheme .empty
  /-- The pair of a secret was put in. -/
  | inserted {store next : KeyStore} {hash : Hash256} (secret : SecretKey)
      (filled : Filled scheme store) (ok : store.insertSecret scheme secret = .ok (next, hash)) :
      Filled scheme next

/-- In a store that is filled, each pair stands under the hash of its public key, which is that of its
secret. -/
theorem Filled.forall_entries (h : store.Filled scheme) : ∀ entry ∈ store.entries,
    entry.2.hash = entry.1 ∧ scheme.publicKey entry.2.secret = .ok entry.2.publicKey := by
  induction h with
  | empty => simp [KeyStore.empty]
  | inserted secret _ ok ih =>
    obtain ⟨pair, hPair, hNext⟩ := bind_eq_ok_iff.1 ok
    obtain ⟨key, hKey, hMade⟩ := bind_eq_ok_iff.1 hPair
    obtain rfl := Except.ok.inj hMade
    obtain ⟨rfl, -⟩ := Prod.mk.inj (Except.ok.inj hNext)
    intro entry hEntry
    -- An entry of the new store is the new one, or was not replaced by it.
    rcases List.mem_cons.1 hEntry with rfl | hOld
    · exact ⟨rfl, hKey⟩
    · exact ih entry (List.mem_filter.1 hOld).1

/-- The pair that a filled store gives for a hash has that hash, and the public key of its secret. -/
theorem Filled.of_get? (h : store.Filled scheme) {hash : Hash256} {pair : KeyPair}
    (hPair : store.get? hash = some pair) :
    pair.hash = hash ∧ scheme.publicKey pair.secret = .ok pair.publicKey := by
  obtain ⟨front, back, hEntries, -⟩ := List.lookup_eq_some_iff.1 hPair
  exact h.forall_entries (hash, pair) (by simp [hEntries])

end KeyStore

/-! ## Inputs with other scripts -/

/-- An input whose script may be replaced by an allowed one, and another that it may become. The mint
sentinel and an input that spends an expired output are kept. -/
inductive TxIn.Refilled (allowed : Script → Prop) : TxIn → TxIn → Prop
  /-- The input is kept. -/
  | kept {input : TxIn} (hKept : (input.isMint || input.isExpired) = true) :
      Refilled allowed input input
  /-- The script of the input is replaced. -/
  | filled {input : TxIn} {script : Script} (hFilled : (input.isMint || input.isExpired) = false)
      (hScript : allowed script) : Refilled allowed input { input with script }

/-- Where more scripts are allowed, an input may become more. -/
theorem TxIn.Refilled.mono {allowed wider : Script → Prop}
    (hWider : ∀ script, allowed script → wider script) {input other : TxIn}
    (h : input.Refilled allowed other) : input.Refilled wider other := by
  cases h with
  | kept hKept => exact .kept hKept
  | filled hFilled hScript => exact .filled hFilled (hWider _ hScript)

/-- A transaction, and another that differs in scripts of its inputs only, each of which may be replaced
by an allowed one. -/
structure Tx.Refilled (allowed : Script → Prop) (tx other : Tx) : Prop where
  /-- All but the inputs is the same. -/
  eq_with_inputs : other = { tx with inputs := other.inputs }
  /-- Each input is kept, or its script is replaced. -/
  inputs : List.Forall₂ (TxIn.Refilled allowed) tx.inputs other.inputs

/-- Where more scripts are allowed, a transaction may become more. -/
theorem Tx.Refilled.mono {allowed wider : Script → Prop}
    (hWider : ∀ script, allowed script → wider script) {tx other : Tx}
    (h : tx.Refilled allowed other) : tx.Refilled wider other :=
  ⟨h.eq_with_inputs, h.inputs.imp fun _ _ hInput => hInput.mono hWider⟩

/-- Transactions whose inputs have other scripts differ in these only. -/
theorem Tx.Refilled.withoutScripts_eq {allowed : Script → Prop} {tx other : Tx}
    (h : tx.Refilled allowed other) : other.withoutScripts = tx.withoutScripts := by
  have hEach : List.Forall₂ (fun input otherInput : TxIn =>
      { input with script := Script.empty } = { otherInput with script := Script.empty })
      tx.inputs other.inputs := by
    refine h.inputs.imp fun input otherInput hInput => ?_
    cases hInput with
    | kept => rfl
    | filled => rfl
  have hInputs : tx.inputs.map (fun input => { input with script := Script.empty }) =
      other.inputs.map fun input => { input with script := Script.empty } := by
    rw [← List.forall₂_eq_eq_eq, List.forall₂_map_left_iff, List.forall₂_map_right_iff]
    exact hEach
  rw [h.eq_with_inputs]
  unfold Tx.withoutScripts
  rw [hInputs]

/-! ## Unlocking with a key and a signature -/

namespace Script

/-- The script that unlocks an output is told by its two pushes. -/
theorem isPubKeyHashInput_of_pubKeyHashInput {signature key : Bytes} {script : Script}
    (h : pubKeyHashInput signature key = .ok script) : script.isPubKeyHashInput = true := by
  obtain ⟨first, second, rfl, hFirst, hSecond⟩ := exists_of_pubKeyHashInput h
  simp [isPubKeyHashInput, Chunk.isPush, hFirst, hSecond]

end Script

namespace Machine

/-- A key and a valid signature open the output that a signer signs for, be it locked to the hash of
the key for good or until it expires. -/
theorem evaluate_eq_none_of_signingHash? {context : Option Context} {script : Script}
    {hash : Hash256} {signature key : Bytes} {maxOps : Nat} (hAdmissible : script.Admissible)
    (hHash : script.signingHash? = some hash) (hKey : doubleHash key = hash)
    (hCheck : checkSignature ⟨script.encode, context, maxOps⟩ signature key = .ok true)
    (hOps : 7 ≤ maxOps) : (evaluate script [key, signature] context maxOps).failure = none := by
  unfold Script.signingHash? at hHash
  -- The two forms are tried in turn.
  cases hPlain : script.pubKeyHash? with
  | some plain =>
    obtain rfl : plain = hash := by simpa [hPlain] using hHash
    rw [evaluate_keyLock_eq_none_iff hAdmissible hPlain (Nat.le_trans (by decide) hOps)]
    exact ⟨by simp, key, signature, [], rfl, hKey, hCheck⟩
  | none =>
    obtain ⟨⟨_, lock⟩, hParts, rfl⟩ :
        ∃ parts, script.expirableParts? = some parts ∧ parts.1 = hash := by
      simpa [hPlain] using hHash
    rw [evaluate_owner_eq_none_iff hAdmissible hParts hKey hOps]
    exact ⟨by simp, signature, [], rfl, hCheck⟩

end Machine

/-! ## Payments -/

namespace Payment

/-- A payment that differs from the built one in its input scripts only is accepted if its outpoints
are distinct, none of them is the sentinel, it has an output, and its inputs are unlocked. -/
theorem Made.verify_of_build {rules : Rules} {lookup : OutputLookup} {payment : Payment} {tx signed : Tx}
    (hMade : payment.Made lookup) (hBuild : payment.build = .ok tx)
    (hSame : signed.withoutScripts = tx.withoutScripts)
    (hNodup : (tx.inputs.map TxIn.point).Nodup) (hMint : ∀ input ∈ tx.inputs, input.isMint = false)
    (hOutputs : tx.outputs ≠ []) (hScripts : signed.verifyScripts rules lookup = .ok ()) :
    signed.verify rules lookup = .ok () := by
  obtain ⟨hInputs, -, spent, hSpent, hWord, hCreated⟩ := hMade.of_build hBuild
  have hPoints := Tx.map_point_eq_of_withoutScripts_eq hSame
  have hSameOutputs : signed.outputs = tx.outputs := by
    have hBare : signed.withoutScripts.outputs = tx.withoutScripts.outputs := by rw [hSame]
    exact hBare
  -- The sentinel is told by its outpoint.
  have hNoMint : ∀ input ∈ signed.inputs, input.isMint = false := by
    intro input hInput
    have hPoint : input.point ∈ tx.inputs.map TxIn.point := hPoints ▸ List.mem_map_of_mem hInput
    obtain ⟨other, hOther, hSamePoint⟩ := List.mem_map.1 hPoint
    rw [TxIn.isMint, ← hSamePoint]
    exact hMint other hOther
  have hSignedSpent :
      List.Forall₂ (fun input output => lookup input.point = some output) signed.inputs spent := by
    rw [← List.forall₂_map_left_iff (f := TxIn.point)
      (R := fun point output => lookup point = some output), hPoints, List.forall₂_map_left_iff]
    exact hSpent
  have hStructure : signed.WellStructured := by
    refine ⟨?_, ?_, ?_, ?_, fun _ => hNoMint⟩
    · intro hNone
      rw [hNone, List.map_nil] at hPoints
      exact hInputs (List.map_eq_nil_iff.1 hPoints.symm)
    · rw [hSameOutputs]
      exact hOutputs
    · rw [hSameOutputs, hCreated]
      exact hWord
    · rw [hPoints]
      exact hNodup
  have hAmounts : signed.verifyAmounts lookup = .ok () := by
    refine (Tx.verifyAmounts_eq_ok_iff lookup signed).2 (.inr ⟨spent, hSignedSpent, hWord, ?_⟩)
    rw [hSameOutputs, hCreated]
  exact (Tx.verify_eq_ok_iff rules lookup signed).2 ⟨hStructure, hScripts, hAmounts⟩

end Payment

/-! ## Signing -/

namespace Signer

open Machine

variable {signer : Signer} {cache : DigestCache}

/-- The script of an input pushes a signature for the digest of the output that it spends, and the key
under the hash of that output. -/
theorem exists_of_inputScript {index : Nat} {input : TxIn} {script : Script}
    (h : signer.inputScript cache index input = .ok script) :
    ∃ spent hash pair digest signature, signer.lookup input.point = some spent ∧
      spent.script.signingHash? = some hash ∧ signer.keys.get? hash = some pair ∧
      cache.sighashOf ⟨index, spent.script.encode, spent.value, signer.hashType⟩ = .ok digest ∧
      signer.scheme.sign digest pair.secret = .ok signature ∧
      Script.pubKeyHashInput (TxSignature.toBytes ⟨signer.hashType, signature⟩)
        pair.publicKey.toBytes = .ok script := by
  unfold inputScript at h
  cases hSpent : signer.lookup input.point with
  | none => simp [hSpent] at h
  | some spent =>
    cases hHash : spent.script.signingHash? with
    | none => simp [hSpent, hHash] at h
    | some hash =>
      cases hPair : signer.keys.get? hash with
      | none => simp [hSpent, hHash, hPair] at h
      | some pair =>
        simp only [hSpent, hHash, hPair] at h
        obtain ⟨digest, hDigest, h⟩ := bind_eq_ok_iff.1 h
        obtain ⟨signature, hSignature, hScript⟩ := bind_eq_ok_iff.1 h
        rw [mapError_eq_ok_iff] at hDigest
        exact ⟨spent, hash, pair, digest, signature, rfl, hHash, hPair, hDigest, hSignature, hScript⟩

/-- An input is signed by filling in its script, unless it is the sentinel or spends an expired
output. -/
theorem signInput_eq_ok_iff {index : Nat} {input signed : TxIn} :
    signer.signInput cache index input = .ok signed ↔
      (input.isMint || input.isExpired) = true ∧ signed = input ∨
      (input.isMint || input.isExpired) = false ∧ ∃ script,
        signer.inputScript cache index input = .ok script ∧ signed = { input with script } := by
  unfold signInput
  cases input.isMint || input.isExpired with
  | true => simp [pure, Except.pure, eq_comm]
  | false =>
    simp only [Bool.false_eq_true, if_false, bind_eq_ok_iff, false_and, true_and, false_or]
    simp [pure, Except.pure, eq_comm]

/-- The inputs are signed each at its own position. -/
theorem signInputs_eq_ok_iff {start : Nat} {inputs signed : List TxIn} :
    signer.signInputs cache start inputs = .ok signed ↔ signed.length = inputs.length ∧
      ∀ index input, inputs[index]? = some input → ∃ output, signed[index]? = some output ∧
        signer.signInput cache (start + index) input = .ok output := by
  -- The position of the first input moves with the list, so it is generalized.
  induction inputs generalizing start signed with
  | nil => simp [signInputs, pure, Except.pure, eq_comm]
  | cons input inputs ih =>
    rw [signInputs, bind_eq_ok_iff]
    simp only [bind_eq_ok_iff, ih]
    constructor
    · rintro ⟨first, hFirst, others, ⟨hLength, hOthers⟩, hSigned⟩
      obtain rfl := Except.ok.inj hSigned
      refine ⟨by simp [hLength], fun index other hOther => ?_⟩
      cases index with
      | zero =>
        obtain rfl : input = other := by simpa using hOther
        exact ⟨first, rfl, hFirst⟩
      | succ index =>
        obtain ⟨output, hOutput, hSign⟩ := hOthers index other (by simpa using hOther)
        refine ⟨output, by simpa using hOutput, ?_⟩
        rwa [Nat.add_right_comm] at hSign
    · rintro ⟨hLength, hEach⟩
      cases signed with
      | nil => simp at hLength
      | cons first others =>
        obtain ⟨_, hSame, hFirst⟩ := hEach 0 input rfl
        obtain rfl : first = _ := by simpa using hSame
        refine ⟨first, hFirst, others, ⟨by simpa using hLength, fun index other hOther => ?_⟩, rfl⟩
        obtain ⟨output, hOutput, hSign⟩ := hEach (index + 1) other (by simpa using hOther)
        refine ⟨output, by simpa using hOutput, ?_⟩
        rwa [Nat.add_right_comm]

/-- A transaction is signed by signing its inputs off a cache of its digests; all else stays. -/
theorem sign_eq_ok_iff {tx signed : Tx} :
    signer.sign tx = .ok signed ↔ ∃ inputs, signed = { tx with inputs } ∧
      inputs.length = tx.inputs.length ∧
      ∀ index input, tx.inputs[index]? = some input → ∃ output, inputs[index]? = some output ∧
        signer.signInput (DigestCache.ofTx tx).fillAll index input = .ok output := by
  unfold sign
  simp only [bind_eq_ok_iff, signInputs_eq_ok_iff, Nat.zero_add, pure, Except.pure, Except.ok.injEq]
  constructor
  · rintro ⟨inputs, hInputs, hSigned⟩
    exact ⟨inputs, hSigned.symm, hInputs⟩
  · rintro ⟨inputs, hSigned, hInputs⟩
    exact ⟨inputs, hInputs, hSigned.symm⟩

/-- A signed input has a script of two pushes, unless it is kept. -/
theorem refilled_of_signInput {index : Nat} {input signed : TxIn}
    (h : signer.signInput cache index input = .ok signed) :
    input.Refilled (fun script => script.isPubKeyHashInput = true) signed := by
  obtain ⟨hKept, rfl⟩ | ⟨hFilled, script, hScript, rfl⟩ := signInput_eq_ok_iff.1 h
  · exact .kept hKept
  · obtain ⟨_, _, _, _, _, -, -, -, -, -, hPushes⟩ := exists_of_inputScript hScript
    exact .filled hFilled (Script.isPubKeyHashInput_of_pubKeyHashInput hPushes)

/-- Signed inputs have scripts of two pushes, unless they are kept. -/
theorem refilled_of_signInputs {start : Nat} {inputs signed : List TxIn}
    (h : signer.signInputs cache start inputs = .ok signed) :
    List.Forall₂ (TxIn.Refilled fun script => script.isPubKeyHashInput = true) inputs signed := by
  induction inputs generalizing start signed with
  | nil =>
    obtain rfl := Except.ok.inj h
    exact .nil
  | cons input inputs ih =>
    obtain ⟨first, hFirst, h⟩ := bind_eq_ok_iff.1 h
    obtain ⟨others, hOthers, hSigned⟩ := bind_eq_ok_iff.1 h
    obtain rfl := Except.ok.inj hSigned
    exact .cons (refilled_of_signInput hFirst) (ih hOthers)

/-- Signing changes nothing but the scripts of the inputs that it does not keep, and each of these
becomes two pushes. -/
theorem refilled_of_sign {tx signed : Tx} (h : signer.sign tx = .ok signed) :
    tx.Refilled (fun script => script.isPubKeyHashInput = true) signed := by
  obtain ⟨inputs, hInputs, hSigned⟩ := bind_eq_ok_iff.1 h
  obtain rfl := Except.ok.inj hSigned
  exact ⟨rfl, refilled_of_signInputs hInputs⟩

/-- Signing changes nothing but input scripts. -/
theorem withoutScripts_of_sign {tx signed : Tx} (h : signer.sign tx = .ok signed) :
    signed.withoutScripts = tx.withoutScripts :=
  (refilled_of_sign h).withoutScripts_eq

/-- An input that was signed is unlocked in the signed transaction. -/
theorem verifyInput_of_sign {params : Params} {tx signed : Tx} (hScheme : signer.scheme.Correct)
    (hKeys : signer.keys.Filled signer.scheme)
    (hLookup : ∀ point spent, signer.lookup point = some spent → spent.script.Admissible)
    (hOps : 7 ≤ params.maxScriptOps.toNat) (hSign : signer.sign tx = .ok signed)
    (hCache : cache.Faithful) (hTx : cache.tx = signed) {index : Nat} {input : TxIn}
    (hInput : tx.inputs[index]? = some input) (hMint : input.isMint = false)
    (hExpired : input.isExpired = false) :
    Tx.verifyInput ⟨params, signer.scheme⟩ signer.lookup cache index = .ok () := by
  have hSame := withoutScripts_of_sign hSign
  obtain ⟨inputs, hSigned, -, hEach⟩ := sign_eq_ok_iff.1 hSign
  obtain ⟨output, hOutput, hSignInput⟩ := hEach index input hInput
  -- The input is not one that the signer leaves as it is, so its script was filled in.
  obtain ⟨hSkipped, -⟩ | ⟨-, script, hScript, rfl⟩ := signInput_eq_ok_iff.1 hSignInput
  · simp [hMint, hExpired] at hSkipped
  have hSignedInput : cache.tx.inputs[index]? = some { input with script } := by
    rw [hTx, hSigned]
    exact hOutput
  obtain ⟨spent, hash, pair, digest, signature, hSpent, hHash, hPair, hDigest, hSignature, hPushes⟩ :=
    exists_of_inputScript hScript
  -- The store gives a pair whose public key has the hash and checks the signature.
  obtain ⟨hPairHash, hPublic⟩ := hKeys.of_get? hPair
  obtain ⟨key, hKey, hValid⟩ := hScheme digest pair.secret signature hSignature
  obtain rfl : key = pair.publicKey := Except.ok.inj (hKey.symm.trans hPublic)
  -- The digest of the signed transaction is that of the unsigned one.
  have hSighash : cache.sighashOf ⟨index, spent.script.encode, spent.value, signer.hashType⟩ =
      .ok digest := by
    rw [← hDigest, Tx.sighashOf_eq_of_withoutScripts_eq hCache (DigestCache.faithful_fillAll_ofTx tx)
      (hTx ▸ hSame)]
  have hSignatureLength :
      (TxSignature.toBytes ⟨signer.hashType, signature⟩).length ≤ maxElementSize := by
    rw [TxSignature.toBytes, List.length_cons, signature.length_toBytes]
    decide
  have hKeyLength : pair.publicKey.toBytes.length ≤ maxElementSize := by
    rw [pair.publicKey.length_toBytes]
    decide
  refine (Tx.verifyInput_eq_ok_iff_of_spent ⟨params, signer.scheme⟩ hSignedInput hMint hSpent).2
    ⟨Script.isPushOnly_of_pubKeyHashInput hPushes, _,
      execute_pubKeyHashInput hPushes hSignatureLength hKeyLength, ?_⟩
  refine evaluate_eq_none_of_signingHash? (hLookup _ _ hSpent) hHash hPairHash ?_ hOps
  exact (checkSignature_eq_ok_iff rfl).2
    ⟨⟨signer.hashType, signature⟩, pair.publicKey, digest, rfl, rfl, hSighash, hValid⟩

/-- What a signer signs with the keys of a correct scheme is accepted: every input that is neither the
sentinel nor spends an expired output is unlocked in the signed transaction, and so is the whole of a
payment over the same lookup that has an output and spends distinct outputs. -/
theorem verify_of_sign (params : Params) (signer : Signer) (tx signed : Tx)
    (hScheme : signer.scheme.Correct) (hKeys : signer.keys.Filled signer.scheme)
    (hLookup : ∀ point spent, signer.lookup point = some spent → spent.script.Admissible)
    (hOps : 7 ≤ params.maxScriptOps.toNat) (hSign : signer.sign tx = .ok signed) :
    (∀ (cache : DigestCache) (index : Nat) (input : TxIn), cache.Faithful → cache.tx = signed →
      tx.inputs[index]? = some input → input.isMint = false → input.isExpired = false →
      Tx.verifyInput ⟨params, signer.scheme⟩ signer.lookup cache index = .ok ()) ∧
    (∀ payment : Payment, payment.Made signer.lookup → payment.build = .ok tx →
      (tx.inputs.map TxIn.point).Nodup → (∀ input ∈ tx.inputs, input.isMint = false) →
      tx.outputs ≠ [] → signed.verify ⟨params, signer.scheme⟩ signer.lookup = .ok ()) := by
  have hEach : ∀ (cache : DigestCache) (index : Nat) (input : TxIn), cache.Faithful →
      cache.tx = signed → tx.inputs[index]? = some input → input.isMint = false →
      input.isExpired = false →
      Tx.verifyInput ⟨params, signer.scheme⟩ signer.lookup cache index = .ok () :=
    fun cache index input hCache hTx hInput hMint hExpired =>
      verifyInput_of_sign hScheme hKeys hLookup hOps hSign hCache hTx hInput hMint hExpired
  refine ⟨hEach, fun payment hMade hBuild hNodup hMint hOutputs => ?_⟩
  obtain ⟨-, hUnsigned, -⟩ := hMade.of_build hBuild
  have hSame := withoutScripts_of_sign hSign
  have hLength : signed.inputs.length = tx.inputs.length := by
    simpa using congrArg List.length (Tx.map_point_eq_of_withoutScripts_eq hSame)
  refine hMade.verify_of_build hBuild hSame hNodup hMint hOutputs (forM_eq_ok_iff.2 ?_)
  intro index hIndex
  obtain ⟨input, hInput⟩ : ∃ input, tx.inputs[index]? = some input :=
    ⟨_, List.getElem?_eq_getElem (hLength ▸ List.mem_range.1 hIndex)⟩
  have hMem := List.mem_of_getElem? hInput
  have hNotExpired : input.isExpired = false := by
    rw [hUnsigned input hMem]
    rfl
  exact hEach _ index input (DigestCache.faithful_fillAll_ofTx signed) rfl hInput (hMint input hMem)
    hNotExpired

end Signer

namespace Sample

/-! ## A payment that is signed

The scheme shows the secret beside the digest, and its keys show the secret too. The payment spends an
output of either form. -/

/-- The scheme of signatures that show the secret. -/
def openScheme : SignatureScheme where
  sign digest secret := .ok ⟨digest.toBytes ++ secret.bytes.toBytes, by
    rw [List.length_append, digest.length_toBytes, secret.bytes.length_toBytes]⟩
  verify digest signature key := signature.toBytes == digest.toBytes ++ key.toBytes.tail
  publicKey secret := .ok ⟨2 :: secret.bytes.toBytes, by
    rw [List.length_cons, secret.bytes.length_toBytes]⟩

/-- The scheme is correct. -/
theorem correct_openScheme : openScheme.Correct := by
  intro digest secret signature hSign
  obtain rfl := Except.ok.inj hSign
  exact ⟨_, rfl, beq_self_eq_true _⟩

/-- The pair of a secret. -/
def openPair : KeyPair :=
  ⟨⟨FixedBytes.ofNat 7⟩, ⟨2 :: Bytes.ofNatBE 32 7, by decide⟩⟩

/-- The store that holds the pair. -/
def openKeys : KeyStore := KeyStore.empty.insert openPair

/-- The outpoint of the output that expires. -/
def laterPoint : OutPoint := ⟨FixedBytes.ofNat 1, 4⟩

/-- The output that expires. -/
def laterOutput : TxOut :=
  ⟨9, ((Script.expirableOutput openPair.hash 5).toOption.getD .empty)⟩

/-- The outputs of the pair. -/
def ownedOutputs : OutputLookup := fun outPoint =>
  if outPoint = point then some ⟨9, .pubKeyHashOutput openPair.hash⟩
  else if outPoint = laterPoint then some laterOutput
  else none

/-- The signer of the pair. -/
def openSigner : Signer := ⟨ownedOutputs, openKeys, openScheme, .all⟩

/-- The payment of both outputs. -/
def bothSpent : Payment :=
  ⟨lock, [⟨point, .empty, 0⟩, ⟨laterPoint, .empty, 0⟩], [⟨10, lock⟩], 18, 0⟩

/-- The payment as it is built, with the change. -/
def bothBuilt : Tx :=
  ⟨0, [⟨point, .empty, 0⟩, ⟨laterPoint, .empty, 0⟩], [⟨10, lock⟩, ⟨8, lock⟩], 0⟩

/-- The payment is put together over the outputs of the pair. -/
theorem made_bothSpent : bothSpent.Made ownedOutputs := by
  have hFirst : Payment.addInput ownedOutputs point (.start lock) =
      .ok () ⟨lock, [⟨point, .empty, 0⟩], [], 9, 0⟩ :=
    Payment.addInput_ok_iff.2 ⟨_, 9, rfl, by decide +kernel, by decide, rfl⟩
  have hSecond : Payment.addInput ownedOutputs laterPoint ⟨lock, [⟨point, .empty, 0⟩], [], 9, 0⟩ =
      .ok () ⟨lock, [⟨point, .empty, 0⟩, ⟨laterPoint, .empty, 0⟩], [], 18, 0⟩ :=
    Payment.addInput_ok_iff.2
      ⟨laterOutput, 18, by decide +kernel, by decide +kernel, by decide, rfl⟩
  exact .paid ⟨10, lock⟩ (.added laterPoint (.added point (.start lock) hFirst) hSecond)

/-- The payment is signed, and the signed payment is accepted. -/
theorem exists_verify_sign : ∃ signed, openSigner.sign bothBuilt = .ok signed ∧
    signed.verify ⟨.network, openScheme⟩ ownedOutputs = .ok () := by
  have hIsSigned : (openSigner.sign bothBuilt).toOption.isSome = true := by decide +kernel
  cases hSign : openSigner.sign bothBuilt with
  | error fault => simp [hSign, Except.toOption] at hIsSigned
  | ok signed =>
    have hKeys : openKeys.Filled openScheme := .inserted openPair.secret .empty rfl
    have hLookup : ∀ outPoint spent, ownedOutputs outPoint = some spent →
        spent.script.Admissible := by
      intro outPoint spent hSpent
      unfold ownedOutputs at hSpent
      split_ifs at hSpent
      · rw [← Option.some.inj hSpent]
        exact Script.admissible_pubKeyHashOutput _
      · rw [← Option.some.inj hSpent]
        decide +kernel
    exact ⟨signed, rfl, (Signer.verify_of_sign .network openSigner bothBuilt signed correct_openScheme
      hKeys hLookup (by decide) hSign).2 bothSpent made_bothSpent (by decide +kernel)
      (by decide +kernel) (by decide +kernel) (by decide)⟩

end Sample

end UtxoChain
