import UtxoChain.Proofs.Ledger.Conservation
import UtxoChain.Proofs.Machine.Run
import UtxoChain.Proofs.Script.Admissible

/-!
# Outputs locked to the hash of a key

The script of such an output copies the item on top, compares its double hash with the one it holds,
and checks the signature below against the item as a key. `Tx.verifyInput_iff_opensKeyLock` says that
an input unlocks the output exactly when it leaves such a key and such a signature on the stack: there
is no other way to spend it, and every proper spend is accepted.
-/

namespace UtxoChain

open Machine

namespace Script

/-- The hash that a chunk pushes is its payload. -/
theorem payload_of_pushedHash? {chunk : Chunk} {hash : Hash256} (h : pushedHash? chunk = some hash) :
    chunk.payload = some hash.toBytes := by
  obtain ⟨data, hData, hHash⟩ := Option.bind_eq_some_iff.1 h
  rw [FixedBytes.ofBytes?_eq_some_iff] at hHash
  rw [hData, hHash]

/-- A script that is locked to the hash of a key has the five chunks of the template. -/
theorem Admissible.exists_chunks_of_pubKeyHash? {script : Script} {hash : Hash256}
    (hAdmissible : script.Admissible) (h : script.pubKeyHash? = some hash) :
    ∃ push, script.chunks = [.ofOpcode .dup, .ofOpcode .doubleBlake3, push, .ofOpcode .equalVerify,
      .ofOpcode .checkSig] ∧ push.payload = some hash.toBytes := by
  unfold pubKeyHash? at h
  split at h
  · rename_i dup digest push equal check hChunks
    split_ifs at h with hOps
    have hSame : [dup, digest, equal, check] =
        [Opcode.dup, .doubleBlake3, .equalVerify, .checkSig].map .ofOpcode :=
      hAdmissible.eq_map_ofOpcode (by simp [hChunks]) hOps (by decide)
    obtain ⟨rfl, rfl, rfl, rfl⟩ : dup = .ofOpcode .dup ∧ digest = .ofOpcode .doubleBlake3 ∧
        equal = .ofOpcode .equalVerify ∧ check = .ofOpcode .checkSig := by
      simpa using hSame
    exact ⟨push, hChunks, payload_of_pushedHash? h⟩
  · exact absurd h (by simp)

end Script

namespace Machine

/-- The chunks that begin an output locked to the hash of a key run on a stack that has an item, and
room for two more. They leave the hash on the double hash of the item, above the stack. -/
theorem runChunks_hashTop_ok_iff {env : Env} {after : State} {push : Chunk} {rest : List Chunk}
    {hash : Hash256} {stack : Stack} (hPush : push.payload = some hash.toBytes)
    (hOps : 2 ≤ env.maxOps) :
    runChunks env (.ofOpcode .dup :: .ofOpcode .doubleBlake3 :: push :: rest) (State.start stack) =
        .ok () after ↔
      stack.length ≤ 998 ∧ ∃ top below, stack = top :: below ∧
        runChunks env rest ⟨hash.toBytes :: (doubleHash top).toBytes :: top :: below, [], [], 2⟩ =
          .ok () after := by
  have hShort : hash.toBytes.length ≤ maxElementSize := by
    rw [hash.length_toBytes]
    decide
  cases stack with
  | nil =>
    rw [runChunks_ofOpcode_ok_iff rfl (by decide) rfl]
    simp [step_dup_ok_iff, State.start]
  | cons top below =>
    rw [runChunks_ofOpcode_of_step (step_dup_ok_iff.2 ⟨top, below, rfl, rfl⟩) rfl (by decide) rfl
        (Nat.lt_of_lt_of_le Nat.zero_lt_two hOps),
      runChunks_ofOpcode_of_step (step_doubleBlake3_ok_iff.2 ⟨top, top :: below, rfl, rfl⟩) rfl
        (by decide) rfl (Nat.lt_of_lt_of_le Nat.one_lt_two hOps),
      runChunks_push_ok_iff hPush rfl]
    -- The stack is deepest when the hash has been pushed: two items more than at the start.
    simp only [State.start, List.length_cons, List.length_nil, maxStackDepth]
    constructor
    · rintro ⟨-, -, -, hDepth, hRest⟩
      exact ⟨by omega, top, below, rfl, hRest⟩
    · rintro ⟨hDepth, _, _, hStack, hRest⟩
      obtain ⟨rfl, rfl⟩ := List.cons.inj hStack
      exact ⟨by omega, by omega, hShort, by omega, hRest⟩

/-- The chunks that lock an output to the hash of a key run to their end exactly on a stack with room
for two more items, on top of which stand a key of that hash and a signature that is checked. They
leave the outcome of the check. -/
theorem runChunks_keyLock_ok_iff {env : Env} {after : State} {script : Script} {hash : Hash256}
    {stack : Stack} (hAdmissible : script.Admissible) (hHash : script.pubKeyHash? = some hash)
    (hOps : 4 ≤ env.maxOps) :
    runChunks env script.chunks (State.start stack) = .ok () after ↔
      stack.length ≤ 998 ∧ ∃ key signature rest valid, stack = key :: signature :: rest ∧
        doubleHash key = hash ∧ checkSignature env signature key = .ok valid ∧
        after = ⟨ScriptNumber.encode (ScriptNumber.ofBool valid) :: rest, [], [], 4⟩ := by
  obtain ⟨push, hChunks, hPush⟩ := hAdmissible.exists_chunks_of_pubKeyHash? hHash
  rw [hChunks, runChunks_hashTop_ok_iff hPush (by omega)]
  refine and_congr_right fun hDepth => ?_
  constructor
  · rintro ⟨key, below, rfl, hRun⟩
    obtain ⟨-, three, hStep, -, hAfterEqual⟩ :=
      (runChunks_ofOpcode_ok_iff rfl (by decide) rfl).1 hRun
    obtain ⟨_, _, hSame, hThree⟩ := step_equalVerify_ok_iff.1 hStep
    obtain ⟨rfl, hRest⟩ := List.cons.inj hSame
    obtain ⟨hKey, rfl⟩ := List.cons.inj hRest
    obtain rfl : three = ⟨key :: below, [], [], 3⟩ := hThree
    obtain ⟨-, four, hStep, -, hEnd⟩ :=
      (runChunks_ofOpcode_ok_iff rfl (by decide) rfl).1 hAfterEqual
    obtain ⟨_, signature, rest, valid, hBelow, hValid, hFour⟩ := step_checkSig_ok_iff.1 hStep
    obtain ⟨rfl, rfl⟩ := List.cons.inj hBelow
    obtain rfl := runChunks_nil_ok_iff.1 hEnd
    exact ⟨key, signature, rest, valid, rfl, FixedBytes.toBytes_inj.1 hKey, hValid, hFour⟩
  · rintro ⟨key, signature, rest, valid, rfl, rfl, hValid, rfl⟩
    have hRoom : rest.length + 4 ≤ maxStackDepth := by
      simp only [List.length_cons, maxStackDepth] at hDepth ⊢
      omega
    have hCount : ∀ count, count < 4 → count < env.maxOps := fun _ h => Nat.lt_of_lt_of_le h hOps
    refine ⟨key, signature :: rest, rfl, ?_⟩
    refine (runChunks_ofOpcode_of_step (step_equalVerify_ok_iff.2 ⟨_, _, rfl, rfl⟩) rfl (by decide)
      rfl (hCount 2 (by decide))).2 ⟨by simp; omega, ?_⟩
    refine (runChunks_ofOpcode_of_step (step_checkSig_ok_iff.2 ⟨_, _, _, valid, rfl, hValid, rfl⟩) rfl
      (by decide) rfl (hCount 3 (by decide))).2 ⟨by simp; omega, ?_⟩
    exact runChunks_nil_ok_iff.2 rfl

/-- The item that stands for a truth value is a true item if the value is true. -/
theorem isTrue_encode_ofBool (valid : Bool) :
    ScriptNumber.isTrue (ScriptNumber.encode (ScriptNumber.ofBool valid)) = valid := by
  cases valid <;> decide

/-- A script that locks an output to the hash of a key succeeds exactly on a stack with room for two
more items, on top of which stand a key of that hash and a valid signature. -/
theorem evaluate_keyLock_eq_none_iff {context : Option Context} {script : Script} {hash : Hash256}
    {stack : Stack} {maxOps : Nat} (hAdmissible : script.Admissible)
    (hHash : script.pubKeyHash? = some hash) (hOps : 4 ≤ maxOps) :
    (evaluate script stack context maxOps).failure = none ↔
      stack.length ≤ 998 ∧ ∃ key signature rest, stack = key :: signature :: rest ∧
        doubleHash key = hash ∧
        checkSignature ⟨script.encode, context, maxOps⟩ signature key = .ok true := by
  have hRun : ∀ final,
      runChunks ⟨script.encode, context, maxOps⟩ script.chunks (State.start stack) = .ok () final ↔
        stack.length ≤ 998 ∧ ∃ key signature rest valid, stack = key :: signature :: rest ∧
          doubleHash key = hash ∧
          checkSignature ⟨script.encode, context, maxOps⟩ signature key = .ok valid ∧
          final = ⟨ScriptNumber.encode (ScriptNumber.ofBool valid) :: rest, [], [], 4⟩ :=
    fun _ => runChunks_keyLock_ok_iff hAdmissible hHash hOps
  rw [evaluate_failure_eq_none_iff]
  simp only [hRun]
  constructor
  · rintro ⟨final, ⟨hDepth, key, signature, rest, valid, hStack, hKey, hValid, rfl⟩, -, top, _, hTop,
      hTrue⟩
    obtain ⟨rfl, -⟩ := List.cons.inj hTop
    rw [isTrue_encode_ofBool] at hTrue
    rw [hTrue] at hValid
    exact ⟨hDepth, key, signature, rest, hStack, hKey, hValid⟩
  · rintro ⟨hDepth, key, signature, rest, hStack, hKey, hValid⟩
    exact ⟨_, ⟨hDepth, key, signature, rest, true, hStack, hKey, hValid, rfl⟩, rfl, _, rest, rfl,
      isTrue_encode_ofBool true⟩

end Machine

namespace Tx

/-- A stack opens an output locked to the hash of a key: on top stands a key of that hash, and below
it a signature of the input under the key. -/
structure OpensKeyLock (tx : Tx) (scheme : SignatureScheme) (index : Nat) (spent : TxOut)
    (hash : Hash256) (stack : Stack) (key : PublicKey) (signature : TxSignature) : Prop where
  /-- The key is on top and the signature below it. -/
  stack_eq : ∃ rest, stack = key.toBytes :: signature.toBytes :: rest
  /-- The key has the hash. -/
  hash_eq : doubleHash key.toBytes = hash
  /-- The signature is valid for the digest of the spent script and value that its type selects. -/
  signed : ∃ digest,
    tx.sighash ⟨index, spent.script.encode, spent.value, signature.hashType⟩ = .ok digest ∧
      scheme.verify digest signature.signature key = true

/-- An output locked to the hash of a key is unlocked by an input exactly if the input script only
pushes, runs to its end, and leaves from 2 to 998 items with a key of the hash on top and a signature
of the input under that key below it. -/
theorem verifyInput_iff_opensKeyLock (rules : Rules) (lookup : OutputLookup) (cache : DigestCache)
    (index : Nat) (input : TxIn) (spent : TxOut) (hash : Hash256)
    (hCache : cache.Faithful) (hInput : cache.tx.inputs[index]? = some input)
    (hMint : input.isMint = false) (hSpent : lookup input.point = some spent)
    (hAdmissible : spent.script.Admissible) (hHash : spent.script.pubKeyHash? = some hash)
    (hOps : 4 ≤ rules.params.maxScriptOps.toNat) :
    verifyInput rules lookup cache index = .ok () ↔
      input.script.isPushOnly = true ∧ ∃ state,
        execute input.script [] (some ⟨cache, index, spent.value, rules.scheme⟩)
          rules.params.maxScriptOps.toNat = (.ok (), state) ∧
        2 ≤ state.stack.length ∧ state.stack.length ≤ 998 ∧ ∃ key signature,
          cache.tx.OpensKeyLock rules.scheme index spent hash state.stack key signature := by
  have hSpends : verifyInput rules lookup cache index = .ok () ↔
      runScripts rules cache index input spent = .ok () := by
    rw [verifyInput_eq_ok_iff rules lookup cache hInput]
    simp [hMint, hSpent]
  rw [hSpends, runScripts_eq_ok_iff]
  refine and_congr_right fun _ => exists_congr fun state => and_congr_right fun _ => ?_
  rw [evaluate_keyLock_eq_none_iff hAdmissible hHash hOps]
  constructor
  · rintro ⟨hDepth, _, _, rest, hStack, hKey, hCheck⟩
    obtain ⟨signature, key, digest, rfl, rfl, hDigest, hValid⟩ := (checkSignature_eq_ok_iff rfl).1 hCheck
    rw [hCache.sighashOf_eq] at hDigest
    refine ⟨?_, hDepth, key, signature, ⟨rest, hStack⟩, hKey, digest, hDigest, hValid⟩
    simp [hStack]
  · rintro ⟨-, hDepth, key, signature, ⟨rest, hStack⟩, hKey, digest, hDigest, hValid⟩
    refine ⟨hDepth, _, _, rest, hStack, hKey, (checkSignature_eq_ok_iff rfl).2 ?_⟩
    rw [← hCache.sighashOf_eq] at hDigest
    exact ⟨signature, key, digest, rfl, rfl, hDigest, hValid⟩

end Tx

namespace Sample

/-! ## A signed input

The input spends an output that is locked to the hash of a key. -/

/-- The public key of a secret. -/
def key : PublicKey :=
  FixedBytes.ofNat 0x025cbdf0646e5db4eaa398f365f2ea7a0e3d419b7e0330e39ce92bddedcac4f9bc

/-- The signature of the input by that secret. -/
def signature : TxSignature :=
  ⟨.all, FixedBytes.ofNat <|
    0xee954f26ac793d29a9104d663962f0d3484c371fb3865e1ecf1d2dd7770bdff7 * 2 ^ 256 +
      0x2456768113480256d71d495fa98bb77a8ccbf61d262db4972c5234d7f6916f15⟩

/-- The output that is locked to the hash of the key. -/
def owned : TxOut := ⟨9, .pubKeyHashOutput (pubKeyHash key.toBytes)⟩

/-- The input that unlocks it. -/
def unlocking : TxIn :=
  ⟨point, ⟨[⟨Opcode.pushData1.toByte, some signature.toBytes⟩,
    ⟨Opcode.pushData1.toByte, some key.toBytes⟩]⟩, 0⟩

/-- The transaction with that input. -/
def signedSpend : Tx := ⟨0, [unlocking], [⟨9, lock⟩], 0⟩

/-- The output set that holds the output. -/
def ownedOnly : OutputSet := OutputSet.empty.insert point owned

/-- The signed input unlocks the output, by a key and a signature. -/
theorem exists_opensKeyLock :
    Tx.verifyInput rules ownedOnly.get? (.ofTx signedSpend) 0 = .ok () ∧ ∃ stack key signature,
      signedSpend.OpensKeyLock rules.scheme 0 owned (pubKeyHash Sample.key.toBytes) stack key
        signature := by
  have hOk : Tx.verifyInput rules ownedOnly.get? (.ofTx signedSpend) 0 = .ok () := by decide +kernel
  have hSpent : ownedOnly.get? unlocking.point = some owned := by decide +kernel
  have hAdmissible : owned.script.Admissible := Script.admissible_pubKeyHashOutput _
  have hHash : owned.script.pubKeyHash? = some (pubKeyHash key.toBytes) := by decide +kernel
  obtain ⟨-, state, -, -, -, key, signature, hOpens⟩ :=
    (Tx.verifyInput_iff_opensKeyLock rules ownedOnly.get? (.ofTx signedSpend) 0 unlocking owned
      (pubKeyHash Sample.key.toBytes) (DigestCache.faithful_ofTx signedSpend) rfl (by decide) hSpent
      hAdmissible hHash (by decide)).1 hOk
  exact ⟨hOk, state.stack, key, signature, hOpens⟩

end Sample

end UtxoChain
