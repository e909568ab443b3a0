import Mathlib.Data.List.NodupEquivFin
import UtxoChain.Proofs.Machine.Step
import UtxoChain.Proofs.Script.Number

/-!
# Multiple signature checks

A multiple signature check gives each signature the first key after those already given away that
verifies it, and never takes a key back. Nothing is lost by that: if the signatures belong to some
of the keys in order, then a signature that the first key verifies can be given that key, since the
later signatures only need keys after the one it had (`sublistForall₂_of_cons`). So the check holds
exactly if there is a strictly increasing choice of keys under which the signatures verify.

Digests are looked up in a cache. If that is faithful, it does not matter to the check
(`Context.verifies_iff_of_faithful`): what verifies does so over the transaction itself.
-/

namespace UtxoChain.Machine

open Stateful

variable {env : Env} {state : State}

/-! ## Order-preserving choices -/

section

variable {α β : Type} {R : α → β → Prop}

/-- Each item has a partner of its own in a list, and the partners stand in the same order. -/
def MatchesInOrder (R : α → β → Prop) (items : List α) (partners : List β) : Prop :=
  ∃ place : Fin items.length → Fin partners.length, StrictMono place ∧
    ∀ i, R (items.get i) (partners.get (place i))

/-- Items have partners in order exactly if they are related, one by one, to a sublist. -/
theorem matchesInOrder_iff_sublistForall₂ {items : List α} {partners : List β} :
    MatchesInOrder R items partners ↔ List.SublistForall₂ R items partners := by
  rw [List.sublistForall₂_iff]
  constructor
  · rintro ⟨place, hMono, hRelated⟩
    refine ⟨List.ofFn fun i => partners.get (place i), ?_, ?_⟩
    · rw [List.forall₂_iff_get]
      refine ⟨by rw [List.length_ofFn], fun i hItem hPartner => ?_⟩
      rw [List.get_ofFn]
      exact hRelated ⟨i, hItem⟩
    · rw [List.sublist_iff_exists_fin_orderEmbedding_get_eq]
      have hLength := List.length_ofFn (f := fun i => partners.get (place i))
      refine ⟨OrderEmbedding.ofStrictMono (fun i => place (i.cast hLength))
        (hMono.comp (Fin.castOrderIso hLength).strictMono), fun i => ?_⟩
      rw [List.get_ofFn]
      rfl
  · rintro ⟨chosen, hRelated, hSublist⟩
    obtain ⟨hLength, hRelated⟩ := List.forall₂_iff_get.1 hRelated
    obtain ⟨place, hPlace⟩ := List.sublist_iff_exists_fin_orderEmbedding_get_eq.1 hSublist
    refine ⟨fun i => place (i.cast hLength),
      place.strictMono.comp (Fin.castOrderIso hLength).strictMono, fun i => ?_⟩
    rw [← hPlace]
    exact hRelated i i.2 (hLength ▸ i.2)

/-- The later items keep their partners when the first item and a partner are left out. -/
theorem sublistForall₂_of_cons {item : α} {items : List α} {partner : β} {partners : List β}
    (h : List.SublistForall₂ R (item :: items) (partner :: partners)) :
    List.SublistForall₂ R items partners := by
  cases h with
  | cons _ h => exact h
  | cons_right h =>
    -- The first item had a later partner, and those after that one are still there.
    obtain ⟨chosen, hRelated, hSublist⟩ := List.sublistForall₂_iff.1 h
    cases hRelated with
    | cons _ hOthers =>
      exact List.sublistForall₂_iff.2 ⟨_, hOthers, (List.sublist_cons_self _ _).trans hSublist⟩

/-- Where each check of an item against a partner has an outcome, the first partner that an item can
have is as good as any: the matching succeeds exactly if the items have partners in order. -/
theorem exists_matchSignatures {check : Bytes → Bytes → Except ScriptFailure Bool}
    {write : α → Bytes} {writePartner : β → Bytes}
    (hCheck : ∀ item partner, ∃ valid, check (write item) (writePartner partner) = .ok valid ∧
      (valid = true ↔ R item partner)) (items : List α) (partners : List β) :
    ∃ valid, matchSignatures check (items.map write) (partners.map writePartner) = .ok valid ∧
      (valid = true ↔ MatchesInOrder R items partners) := by
  rw [matchesInOrder_iff_sublistForall₂]
  induction partners generalizing items with
  | nil =>
    cases items with
    | nil => exact ⟨true, rfl, fun _ => .nil, fun _ => rfl⟩
    | cons item items => exact ⟨false, rfl, nofun, nofun⟩
  | cons partner partners ih =>
    cases items with
    | nil => exact ⟨true, rfl, fun _ => .nil, fun _ => rfl⟩
    | cons item items =>
      obtain ⟨taken, hTaken, hRelated⟩ := hCheck item partner
      rw [List.map_cons, List.map_cons, matchSignatures, hTaken]
      cases taken with
      -- The first partner is given away, which costs the later items nothing.
      | true =>
        obtain ⟨valid, hMatch, hValid⟩ := ih items
        refine ⟨valid, hMatch, hValid.trans ⟨fun h => ?_, sublistForall₂_of_cons⟩⟩
        exact .cons (hRelated.1 rfl) h
      -- The first item cannot have the first partner, and the later ones come after it.
      | false =>
        obtain ⟨valid, hMatch, hValid⟩ := ih (item :: items)
        refine ⟨valid, hMatch, hValid.trans ⟨.cons_right, fun h => ?_⟩⟩
        cases h with
        | cons hFirst _ => exact absurd (hRelated.2 hFirst) nofun
        | cons_right h => exact h

end

/-! ## Operands -/

/-- As many items as are asked for are taken off. -/
theorem popMany_append {count : Nat} {items : Stack} (hCount : items.length = count)
    (rest : Stack) :
    popMany count { state with stack := items ++ rest } =
      .ok items { state with stack := rest } := by
  have hSplit : Stack.split? (items ++ rest) count = some (items, rest) := by
    rw [Stack.split?, List.length_append, hCount, if_pos (Nat.le_add_right _ _),
      List.take_left' hCount, List.drop_left' hCount]
  have hRequire : require count { state with stack := items ++ rest } =
      .ok () { state with stack := items ++ rest } :=
    require_ok_iff.2 ⟨by rw [List.length_append, hCount]; exact Nat.le_add_right _ _, rfl⟩
  have hGet : getStack { state with stack := items ++ rest } =
      .ok (items ++ rest) { state with stack := items ++ rest } := getStack_ok_iff.2 ⟨rfl, rfl⟩
  unfold popMany
  rw [bind_of_ok hRequire, bind_of_ok hGet, bind_of_ok (located_ok_iff.2 ⟨hSplit, rfl⟩)]
  rfl

/-- What a multiple signature check takes off, the lowest item first. -/
def multiSignatureItems (signatures : List TxSignature) (keys : List PublicKey) : List Bytes :=
  signatures.map TxSignature.toBytes ++ [ScriptNumber.encode signatures.length] ++
    (keys.map FixedBytes.toBytes ++ [ScriptNumber.encode keys.length])

/-- A multiple signature check takes off two numbers, the keys and the signatures. -/
theorem length_multiSignatureItems (signatures : List TxSignature) (keys : List PublicKey) :
    (multiSignatureItems signatures keys).length = signatures.length + keys.length + 2 := by
  simp only [multiSignatureItems, List.length_append, List.length_map, List.length_singleton]
  omega

/-- A multiple signature check takes its operands off and matches the signatures with the keys. -/
theorem popMultiSignatureCheck_of_items (state : State) {signatures : List TxSignature}
    {keys : List PublicKey} {valid : Bool} (hKeys : keys.length ≤ maxMultiSigKeys)
    (hSignatures : signatures.length ≤ keys.length)
    (hMatch : matchSignatures (checkSignature env) (signatures.map TxSignature.toBytes)
      (keys.map FixedBytes.toBytes) = .ok valid) (below : Stack) :
    popMultiSignatureCheck env
        { state with stack := (multiSignatureItems signatures keys).reverse ++ below } =
      .ok valid { state with stack := below } := by
  -- The stack from its top: the number of keys, the keys, the number of signatures, the signatures.
  have hStack : (multiSignatureItems signatures keys).reverse ++ below =
      ScriptNumber.encode keys.length :: ((keys.map FixedBytes.toBytes).reverse ++
        (ScriptNumber.encode signatures.length ::
          ((signatures.map TxSignature.toBytes).reverse ++ below))) := by
    simp [multiSignatureItems]
  have hKeysLength : (keys.map FixedBytes.toBytes).reverse.length = keys.length := by
    rw [List.length_reverse, List.length_map]
  have hSignaturesLength :
      (signatures.map TxSignature.toBytes).reverse.length = signatures.length := by
    rw [List.length_reverse, List.length_map]
  have hBound : maxMultiSigKeys < WordSize.count.bound := by decide
  unfold popMultiSignatureCheck
  rw [hStack, bind_of_ok (popIndex_encode (by omega) _), if_neg (Nat.not_lt.2 hKeys),
    bind_of_ok (popMany_append hKeysLength _), bind_of_ok (popIndex_encode (by omega) _),
    if_neg (Nat.not_lt.2 hSignatures), bind_of_ok (popMany_append hSignaturesLength _),
    List.reverse_reverse, List.reverse_reverse]
  exact decided_ok_iff.2 ⟨hMatch, rfl⟩

/-! ## Signatures -/

/-- The signature is valid under the key for the input of a context and some script bytes, as far as
its hash type commits to them. -/
def Context.Verifies (context : Context) (scriptCode : Bytes) (signature : TxSignature)
    (key : PublicKey) : Prop :=
  ∃ digest, context.cache.sighashOf
      ⟨context.inputIndex, scriptCode, context.amount, signature.hashType⟩ = .ok digest ∧
    context.scheme.verify digest signature.signature key = true

/-- The signature is valid in the same way over the digest that the transaction itself has, whatever the
cache remembers. -/
def Context.VerifiesAfresh (context : Context) (scriptCode : Bytes) (signature : TxSignature)
    (key : PublicKey) : Prop :=
  ∃ digest, context.cache.tx.sighash
      ⟨context.inputIndex, scriptCode, context.amount, signature.hashType⟩ = .ok digest ∧
    context.scheme.verify digest signature.signature key = true

/-- Off a faithful cache, the digest is that of the transaction. -/
theorem Context.verifies_iff_of_faithful {context : Context} (h : context.cache.Faithful)
    {scriptCode : Bytes} {signature : TxSignature} {key : PublicKey} :
    context.Verifies scriptCode signature key ↔ context.VerifiesAfresh scriptCode signature key := by
  unfold Verifies VerifiesAfresh
  rw [h.sighashOf_eq]

/-- For an input that is there, every request has a digest. -/
theorem exists_sighashOf {cache : DigestCache} (request : SighashRequest)
    (h : request.inputIndex < cache.tx.inputs.length) :
    ∃ digest, cache.sighashOf request = .ok digest := by
  unfold DigestCache.sighashOf DigestCache.preimageOf Tx.preimageWith
  rw [List.getElem?_eq_getElem h]
  exact ⟨_, rfl⟩

/-- For an input that is there, a signature check has an outcome. -/
theorem exists_checkSignature {context : Context} (hContext : env.context = some context)
    (hInput : context.inputIndex < context.cache.tx.inputs.length) (signature : TxSignature)
    (key : PublicKey) :
    ∃ valid, checkSignature env signature.toBytes key.toBytes = .ok valid ∧
      (valid = true ↔ context.Verifies env.scriptCode signature key) := by
  obtain ⟨digest, hDigest⟩ := exists_sighashOf
    ⟨context.inputIndex, env.scriptCode, context.amount, signature.hashType⟩ hInput
  refine ⟨context.scheme.verify digest signature.signature key,
    (checkSignature_eq_ok_iff hContext).2 ⟨signature, key, digest, rfl, rfl, hDigest, rfl⟩, ?_⟩
  constructor
  · intro hValid
    exact ⟨digest, hDigest, hValid⟩
  · rintro ⟨other, hOther, hValid⟩
    obtain rfl := Except.ok.inj (hDigest.symm.trans hOther)
    exact hValid

/-- A multiple signature check decides whether the signatures belong to some of the keys in order. Off a
faithful cache the signatures are those over the digests of the transaction itself. From the state
below its operands, whose number is that of the signatures and keys and two more, `CHECKMULTISIG` leaves
the answer on the stack, and `CHECKMULTISIGVERIFY` fails exactly on a no. -/
theorem checkMultiSig_decides (env : Env) (context : Context) (state : State)
    (signatures : List TxSignature) (keys : List PublicKey) (below : Stack)
    (hContext : env.context = some context)
    (hInput : context.inputIndex < context.cache.tx.inputs.length)
    (hKeys : keys.length ≤ 20) (hSignatures : signatures.length ≤ keys.length)
    (hStack : state.stack = (multiSignatureItems signatures keys).reverse ++ below) :
    state.stack.length = below.length + (signatures.length + keys.length + 2) ∧
      ∃ valid : Bool,
        (valid = true ↔ MatchesInOrder (context.Verifies env.scriptCode) signatures keys) ∧
        (context.cache.Faithful →
          (valid = true ↔ MatchesInOrder (context.VerifiesAfresh env.scriptCode) signatures keys)) ∧
        popMultiSignatureCheck env state = .ok valid { state with stack := below } ∧
        step env .checkMultiSig state =
          .ok () { state with
            stack := ScriptNumber.encode (ScriptNumber.ofBool valid) :: below } ∧
        step env .checkMultiSigVerify state =
          if valid then .ok () { state with stack := below }
          else .error (.verifyFailed .checkMultiSigVerify) { state with stack := below } := by
  obtain ⟨valid, hMatch, hValid⟩ :=
    exists_matchSignatures (exists_checkSignature hContext hInput) signatures keys
  have hPop : popMultiSignatureCheck env state = .ok valid { state with stack := below } := by
    have h := popMultiSignatureCheck_of_items state hKeys hSignatures hMatch below
    rw [← hStack] at h
    exact h
  refine ⟨?_, valid, hValid, fun hFaithful => ?_, hPop, ?_, ?_⟩
  · rw [hStack, List.length_append, List.length_reverse, length_multiSignatureItems, Nat.add_comm]
  · have hAfresh : context.Verifies env.scriptCode = context.VerifiesAfresh env.scriptCode := by
      funext signature key
      exact propext (Context.verifies_iff_of_faithful hFaithful)
    rw [← hAfresh]
    exact hValid
  · change (popMultiSignatureCheck env >>= pushBool) state = _
    rw [bind_of_ok hPop]
    exact pushBool_ok_iff.2 rfl
  · change (popMultiSignatureCheck env >>= verify .checkMultiSigVerify) state = _
    rw [bind_of_ok hPop]
    cases valid <;> rfl

end UtxoChain.Machine

namespace UtxoChain.Sample

open Machine

/-- The scheme whose signatures are the numbers of their keys. -/
def numberScheme : SignatureScheme where
  sign _ secret := .ok (FixedBytes.ofNat secret.bytes.toNat)
  verify _ signature key := signature.toNat == key.toNat
  publicKey secret := .ok (FixedBytes.ofNat secret.bytes.toNat)

/-- The only input of a transaction. -/
def onlyInput : Context where
  cache := .ofTx ⟨0, [⟨⟨FixedBytes.zero, 0⟩, .empty, 0⟩], [], 0⟩
  inputIndex := 0
  amount := 0
  scheme := numberScheme

/-- Two signatures, by the first and by the last of three keys. -/
def twoSignatures : List TxSignature := [⟨⟨1⟩, FixedBytes.ofNat 5⟩, ⟨⟨2⟩, FixedBytes.ofNat 7⟩]

/-- Three keys. -/
def threeKeys : List PublicKey := [FixedBytes.ofNat 5, FixedBytes.ofNat 6, FixedBytes.ofNat 7]

/-- The two signatures and the three keys above another item. -/
def twoOfThree : State := .start ((multiSignatureItems twoSignatures threeKeys).reverse ++ [[9]])

/-- A signature verifies under the key of its number. -/
theorem verifies_of_toNat_eq {signature : TxSignature} {key : PublicKey}
    (h : signature.signature.toNat = key.toNat) : onlyInput.Verifies [] signature key := by
  obtain ⟨digest, hDigest⟩ : ∃ digest, onlyInput.cache.sighashOf
      ⟨0, [], 0, signature.hashType⟩ = .ok digest := exists_sighashOf _ (Nat.zero_lt_one)
  exact ⟨digest, hDigest, beq_iff_eq.2 h⟩

/-- Two of three keys have signed, so the check leaves a true item above the other one. Nothing is
remembered yet, so it is the transaction itself that they have signed. -/
theorem step_checkMultiSig_twoOfThree :
    step ⟨[], some onlyInput, 1⟩ .checkMultiSig twoOfThree =
        .ok () { twoOfThree with stack := [[1], [9]] } ∧
      MatchesInOrder (onlyInput.VerifiesAfresh []) twoSignatures threeKeys := by
  obtain ⟨-, valid, hValid, hAfresh, -, hStep, -⟩ :=
    checkMultiSig_decides ⟨[], some onlyInput, 1⟩ onlyInput twoOfThree twoSignatures threeKeys [[9]]
      rfl (by decide) (by decide) (by decide) rfl
  have hMatches : MatchesInOrder (onlyInput.Verifies []) twoSignatures threeKeys := by
    rw [matchesInOrder_iff_sublistForall₂]
    exact .cons (verifies_of_toNat_eq (by decide +kernel))
      (.cons_right (.cons (verifies_of_toNat_eq (by decide +kernel)) .nil))
  have hTrue := hValid.2 hMatches
  rw [hTrue] at hStep
  exact ⟨hStep, (hAfresh (DigestCache.faithful_ofTx _)).1 hTrue⟩

end UtxoChain.Sample
