import UtxoChain.Machine.Run
import UtxoChain.Proofs.Tx.Remembering

/-!
# The script machine beside a cache

The machine that runs reads its digests off a cache that is full from the start. Here is the machine
that is given an empty one and asks it: each signature check may fill cells, and what one check has
filled, the checks after it find. Only signatures ask, so every other step is one of the machine that
runs (`unasked`).

The two machines match (`Matches`): from one state, beside any cache that serves the transaction, they
end with the same result in the same state.
-/

namespace UtxoChain.Machine

/-- The environment with another cache for its transaction input. -/
def Env.withCache (env : Env) (cache : DigestCache) : Env :=
  { env with context := env.context.map fun context => { context with cache } }

/-- The script is that of the environment, whatever the cache. -/
theorem Env.scriptCode_withCache (env : Env) (cache : DigestCache) :
    (env.withCache cache).scriptCode = env.scriptCode :=
  rfl

namespace Cached

/-- A step of the machine beside a cache. -/
abbrev Step := EStateM ScriptFailure (State × DigestCache)

variable {α β : Type}

/-- The result of a step, with a cache beside the state. -/
def beside (cache : DigestCache) :
    EStateM.Result ScriptFailure State α → EStateM.Result ScriptFailure (State × DigestCache) α
  | .ok value state => .ok value (state, cache)
  | .error failure state => .error failure (state, cache)

/-- A step that asks nothing keeps the cache. -/
def unasked (step : Machine.Step α) : Step α := fun (state, cache) =>
  beside cache (step state)

/-- Asking the cache keeps the state. -/
def ask (question : StateM DigestCache α) : Step α := fun (state, cache) =>
  let (answer, cache) := question cache
  .ok answer (state, cache)

/-! ## The machine -/

/-- The signature is valid for the transaction input under the key, as the cache says. -/
def checkSignature (env : Env) (signature key : Bytes) : Step Bool :=
  match env.contextFor .checkSig with
  | .error failure => throw failure
  | .ok context =>
    match TxSignature.ofBytes? signature, FixedBytes.ofBytes? key with
    | none, _ => throw (.invalidSignature signature.length)
    | some _, none => throw .invalidPubKey
    | some signature, some key => do
      let request : SighashRequest :=
        ⟨context.inputIndex, env.scriptCode, context.amount, signature.hashType⟩
      match ← ask (DigestCache.verifySignature context.scheme key signature.signature request) with
      | .error missing => throw (.noTxContext (.noSighash missing))
      | .ok valid => return valid

/-- The signatures belong to some of the keys, in the same order. -/
def matchSignatures (check : Bytes → Bytes → Step Bool) : List Bytes → List Bytes → Step Bool
  | [], _ => return true
  | _ :: _, [] => return false
  | signature :: signatures, key :: keys => do
    if ← check signature key then matchSignatures check signatures keys
    else matchSignatures check (signature :: signatures) keys

/-- Takes a key and a signature off and checks them. -/
def popSignatureCheck (env : Env) : Step Bool := do
  let key ← unasked pop
  let signature ← unasked pop
  checkSignature env signature key

/-- Takes a number of keys, the keys, a number of signatures and the signatures off, the last of each
list on top, and checks them. -/
def popMultiSignatureCheck (env : Env) : Step Bool := do
  let keyCount ← unasked popIndex
  if maxMultiSigKeys < keyCount then throw .invalidRange
  else
    let keys ← unasked (popMany keyCount)
    let signatureCount ← unasked popIndex
    if keyCount < signatureCount then throw .invalidRange
    else
      let signatures ← unasked (popMany signatureCount)
      matchSignatures (checkSignature env) signatures.reverse keys.reverse

/-- Runs an opcode that is not a conditional. -/
def step (env : Env) (op : Opcode) : Step Unit :=
  match op with
  | .checkSig => do unasked (pushBool (← popSignatureCheck env))
  | .checkSigVerify => do unasked (verify op (← popSignatureCheck env))
  | .checkMultiSig => do unasked (pushBool (← popMultiSignatureCheck env))
  | .checkMultiSigVerify => do unasked (verify op (← popMultiSignatureCheck env))
  | _ => unasked (Machine.step env op)

/-- Runs a chunk without payload. -/
def stepOpcode (env : Env) (byte : UInt8) (executing : Bool) : Step Flow :=
  match Opcode.ofByte? byte, executing with
  | none, true => throw (.unknownOpcode byte)
  | none, false => return .next
  | some op, _ =>
    if op.isConditional then do
      unasked (countOp env)
      unasked (stepConditional op executing)
      return .next
    else if executing then
      if op = .returnOp then return .stop
      else do
        unasked (countOp env)
        step env op
        unasked checkDepth
        return .next
    else return .next

/-- Runs a chunk. -/
def stepChunk (env : Env) (chunk : Chunk) : Step Flow := do
  let executing := (← unasked get).executing
  match chunk.payload with
  | none => stepOpcode env chunk.opcode executing
  | some data =>
    if executing then do
      unasked (push data)
      unasked checkDepth
      return .next
    else return .next

/-- Runs chunks until one ends the script. -/
def runChunks (env : Env) : List Chunk → Step Unit
  | [] => return ()
  | chunk :: rest => do
    match ← stepChunk env chunk with
    | .next => runChunks env rest
    | .stop => return ()

/-- Runs chunks and checks that they closed what they opened. -/
def runBalanced (env : Env) (chunks : List Chunk) : Step Unit := do
  runChunks env chunks
  unasked checkBalance

/-- The result of running a script on a stack, and the state in which it ends. -/
def execute (script : Script) (stack : Stack) (context : Option Context) (maxOps : Nat) :
    StateM DigestCache (Except ScriptFailure Unit × State) := fun cache =>
  match runBalanced ⟨script.encode, context, maxOps⟩ script.chunks (State.start stack, cache) with
  | .ok () (state, cache) => ((.ok (), state), cache)
  | .error failure (state, cache) => ((.error failure, state), cache)

/-- The verdict on a script that runs on a stack. -/
def evaluate (script : Script) (stack : Stack) (context : Option Context) (maxOps : Nat) :
    StateM DigestCache Outcome := do
  match ← execute script stack context maxOps with
  | (.ok (), state) => return ⟨state.stack.head?, judge state.stack⟩
  | (.error failure, state) => return ⟨state.stack.head?, some failure⟩

/-! ## Matching steps -/

variable {tx : Tx}

/-- Beside every cache that serves the transaction, the step ends as the other does, and the cache
serves the transaction afterwards. -/
def Matches (tx : Tx) (cached : Step α) (plain : Machine.Step α) : Prop :=
  ∀ state cache, cache.Serves tx →
    ∃ after, cached (state, cache) = beside after (plain state) ∧ after.Serves tx

/-- A step that asks nothing matches the step that it is. -/
theorem matches_unasked (plain : Machine.Step α) : Matches tx (unasked plain) plain :=
  fun _ cache h => ⟨cache, rfl, h⟩

/-- Steps that only give a value match. -/
theorem matches_pure (value : α) : Matches tx (pure value) (pure value) :=
  fun _ cache h => ⟨cache, rfl, h⟩

/-- Steps that fail for the same reason match. -/
theorem matches_throw (failure : ScriptFailure) :
    Matches tx (throw failure : Step α) (throw failure) :=
  fun _ cache h => ⟨cache, rfl, h⟩

/-- A question that is answered matches what follows from its answer. -/
theorem matches_ask_bind {question : StateM DigestCache α} {answer : α} {next : α → Step β}
    {plain : Machine.Step β} (h : DigestCache.Answers tx question answer)
    (hNext : Matches tx (next answer) plain) : Matches tx (ask question >>= next) plain := by
  intro state cache hCache
  obtain ⟨middle, hAnswer, hMiddle⟩ := h cache hCache
  obtain ⟨after, hEnd, hAfter⟩ := hNext state middle hMiddle
  refine ⟨after, ?_, hAfter⟩
  change next (question cache).1 (state, (question cache).2) = _
  rw [hAnswer]
  exact hEnd

/-- Steps that are put together of matching ones match. -/
theorem Matches.bind {cached : Step α} {plain : Machine.Step α} {next : α → Step β}
    {plainNext : α → Machine.Step β} (h : Matches tx cached plain)
    (hNext : ∀ value, Matches tx (next value) (plainNext value)) :
    Matches tx (cached >>= next) (plain >>= plainNext) := by
  intro state cache hCache
  obtain ⟨middle, hFirst, hMiddle⟩ := h state cache hCache
  change ∃ after, EStateM.bind cached next (state, cache) =
    beside after (EStateM.bind plain plainNext state) ∧ after.Serves tx
  unfold EStateM.bind
  rw [hFirst]
  cases plain state with
  | ok value left => exact hNext value left middle hMiddle
  | error failure left => exact ⟨middle, rfl, hMiddle⟩

/-! ## Signatures -/

section

variable {env : Env} {full : DigestCache}

/-- A check that does not change the state is decided in two steps if it is made in two. -/
theorem decided_bind (first : Except ScriptFailure α) (next : α → Except ScriptFailure β) :
    decided (first >>= next) = (decided first >>= fun value => decided (next value)) := by
  cases first with
  | ok value => rfl
  | error failure => rfl

/-- With another cache the transaction input is there for the same opcodes. -/
theorem contextFor_withCache (env : Env) (cache : DigestCache) (op : Opcode) :
    (env.withCache cache).contextFor op =
      (env.contextFor op).map fun context => { context with cache } := by
  unfold Env.contextFor Env.withCache
  cases env.context with
  | none => rfl
  | some context => rfl

/-- A signature is checked alike. -/
theorem matches_checkSignature (hFull : full.Serves tx) (env : Env) (signature key : Bytes) :
    Matches tx (checkSignature env signature key)
      (decided (Machine.checkSignature (env.withCache full) signature key)) := by
  unfold checkSignature Machine.checkSignature
  rw [contextFor_withCache]
  cases env.contextFor .checkSig with
  | error failure => exact matches_throw failure
  | ok context =>
    cases TxSignature.ofBytes? signature with
    | none => exact matches_throw _
    | some signature =>
      cases FixedBytes.ofBytes? key with
      | none => exact matches_throw _
      | some key =>
        -- The cache is asked what the other machine reads off the full one.
        refine matches_ask_bind (DigestCache.answers_verifySignature _ _ _ _) ?_
        dsimp only [Except.map, bind, Except.bind]
        rw [hFull.sighashOf_eq, Env.scriptCode_withCache]
        unfold Tx.verifySignature
        cases tx.sighash _ with
        | error missing => exact matches_throw _
        | ok digest => exact matches_pure _

/-- Signatures are matched with keys alike, if each one is checked alike. -/
theorem matches_matchSignatures {check : Bytes → Bytes → Step Bool}
    {plain : Bytes → Bytes → Except ScriptFailure Bool}
    (h : ∀ signature key, Matches tx (check signature key) (decided (plain signature key)))
    (signatures keys : List Bytes) :
    Matches tx (matchSignatures check signatures keys)
      (decided (Machine.matchSignatures plain signatures keys)) := by
  induction keys generalizing signatures with
  | nil =>
    cases signatures with
    | nil => exact matches_pure true
    | cons signature signatures => exact matches_pure false
  | cons key keys ih =>
    cases signatures with
    | nil => exact matches_pure true
    | cons signature signatures =>
      unfold matchSignatures Machine.matchSignatures
      rw [decided_bind]
      refine (h signature key).bind fun valid => ?_
      cases valid with
      | true => exact ih signatures
      | false => exact ih (signature :: signatures)

/-- A key and a signature are taken off and checked alike. -/
theorem matches_popSignatureCheck (hFull : full.Serves tx) (env : Env) :
    Matches tx (popSignatureCheck env) (Machine.popSignatureCheck (env.withCache full)) := by
  refine (matches_unasked pop).bind fun key => ?_
  refine (matches_unasked pop).bind fun signature => ?_
  exact matches_checkSignature hFull env signature key

/-- Keys and signatures are taken off and checked alike. -/
theorem matches_popMultiSignatureCheck (hFull : full.Serves tx) (env : Env) :
    Matches tx (popMultiSignatureCheck env) (Machine.popMultiSignatureCheck (env.withCache full)) := by
  refine (matches_unasked popIndex).bind fun keyCount => ?_
  split_ifs
  · exact matches_throw _
  refine (matches_unasked (popMany keyCount)).bind fun keys => ?_
  refine (matches_unasked popIndex).bind fun signatureCount => ?_
  split_ifs
  · exact matches_throw _
  refine (matches_unasked (popMany signatureCount)).bind fun signatures => ?_
  exact matches_matchSignatures (matches_checkSignature hFull env) _ _

/-! ## Opcodes and scripts -/

/-- An opcode checks signatures. -/
def checksSignatures : Opcode → Bool
  | .checkSig | .checkSigVerify | .checkMultiSig | .checkMultiSigVerify => true
  | _ => false

/-- An opcode that checks no signatures asks nothing. -/
theorem step_eq_unasked (env : Env) {op : Opcode} (hOp : checksSignatures op = false) :
    step env op = unasked (Machine.step env op) := by
  cases op <;> first | rfl | exact absurd hOp nofun

/-- The environment is one of the transaction. -/
def IsFor (tx : Tx) (env : Env) : Prop :=
  ∀ context, env.context = some context → context.cache.tx = tx

/-- What goes on with the transaction input does the same with every cache of the transaction, if it
reads no digests. -/
theorem contextFor_withCache_bind (hFull : full.Serves tx) (hEnv : IsFor tx env) {op : Opcode}
    {next : Context → Machine.Step α}
    (hNext : ∀ context, full.tx = context.cache.tx →
      next { context with cache := full } = next context) :
    (decided ((env.withCache full).contextFor op) >>= next) =
      (decided (env.contextFor op) >>= next) := by
  rw [contextFor_withCache]
  unfold Env.contextFor
  cases hContext : env.context with
  | none => rfl
  | some context =>
    have hSame : full.tx = context.cache.tx := by rw [hFull.tx_eq, hEnv context hContext]
    exact hNext context hSame

/-- An opcode that checks no signatures does the same with every cache of the transaction. -/
theorem step_withCache (hFull : full.Serves tx) (hEnv : IsFor tx env) {op : Opcode}
    (hOp : checksSignatures op = false) :
    Machine.step (env.withCache full) op = Machine.step env op := by
  cases op
  -- Two opcodes look at the transaction: they read its locks.
  case checkLockAbsVerify =>
    refine contextFor_withCache_bind hFull hEnv fun context hSame => ?_
    rw [hSame]
  case checkLockRelVerify =>
    refine contextFor_withCache_bind hFull hEnv fun context hSame => ?_
    rw [hSame]
  all_goals first | rfl | exact absurd hOp nofun

/-- An opcode is run alike. -/
theorem matches_step (hFull : full.Serves tx) (hEnv : IsFor tx env) (op : Opcode) :
    Matches tx (step env op) (Machine.step (env.withCache full) op) := by
  by_cases hOp : checksSignatures op = false
  · rw [step_eq_unasked env hOp, step_withCache hFull hEnv hOp]
    exact matches_unasked _
  · have hSingle := matches_popSignatureCheck hFull env
    have hMulti := matches_popMultiSignatureCheck hFull env
    cases op
    case checkSig => exact hSingle.bind fun _ => matches_unasked _
    case checkSigVerify => exact hSingle.bind fun _ => matches_unasked _
    case checkMultiSig => exact hMulti.bind fun _ => matches_unasked _
    case checkMultiSigVerify => exact hMulti.bind fun _ => matches_unasked _
    all_goals exact absurd rfl hOp

/-- A chunk without payload is run alike. -/
theorem matches_stepOpcode (hFull : full.Serves tx) (hEnv : IsFor tx env) (byte : UInt8)
    (executing : Bool) : Matches tx (stepOpcode env byte executing)
      (Machine.stepOpcode (env.withCache full) byte executing) := by
  unfold stepOpcode Machine.stepOpcode
  cases Opcode.ofByte? byte with
  | none =>
    cases executing with
    | true => exact matches_throw _
    | false => exact matches_pure _
  | some op =>
    dsimp only
    split_ifs
    · refine (matches_unasked (countOp env)).bind fun _ => ?_
      refine (matches_unasked (stepConditional op executing)).bind fun _ => ?_
      exact matches_pure _
    · exact matches_pure _
    · refine (matches_unasked (countOp env)).bind fun _ => ?_
      refine (matches_step hFull hEnv op).bind fun _ => ?_
      exact (matches_unasked checkDepth).bind fun _ => matches_pure _
    · exact matches_pure _

/-- A chunk is run alike. -/
theorem matches_stepChunk (hFull : full.Serves tx) (hEnv : IsFor tx env) (chunk : Chunk) :
    Matches tx (stepChunk env chunk) (Machine.stepChunk (env.withCache full) chunk) := by
  refine (matches_unasked get).bind fun state => ?_
  cases chunk.payload with
  | none => exact matches_stepOpcode hFull hEnv chunk.opcode _
  | some data =>
    dsimp only
    split_ifs
    · refine (matches_unasked (push data)).bind fun _ => ?_
      exact (matches_unasked checkDepth).bind fun _ => matches_pure _
    · exact matches_pure _

/-- Chunks are run alike. -/
theorem matches_runChunks (hFull : full.Serves tx) (hEnv : IsFor tx env) (chunks : List Chunk) :
    Matches tx (runChunks env chunks) (Machine.runChunks (env.withCache full) chunks) := by
  induction chunks with
  | nil => exact matches_pure ()
  | cons chunk rest ih =>
    refine (matches_stepChunk hFull hEnv chunk).bind fun flow => ?_
    cases flow with
    | next => exact ih
    | stop => exact matches_pure ()

/-- Whole scripts are run alike. -/
theorem matches_runBalanced (hFull : full.Serves tx) (hEnv : IsFor tx env) (chunks : List Chunk) :
    Matches tx (runBalanced env chunks) (Machine.runBalanced (env.withCache full) chunks) :=
  (matches_runChunks hFull hEnv chunks).bind fun _ => matches_unasked checkBalance

end

/-! ## Scripts -/

variable {full : DigestCache} {context : Context}

/-- A script ends with the result and in the state in which it ends beside a full cache. -/
theorem answers_execute (hFull : full.Serves tx) (hContext : context.cache.tx = tx)
    (script : Script) (stack : Stack) (maxOps : Nat) :
    DigestCache.Answers tx (execute script stack (some context) maxOps)
      (Machine.execute script stack (some { context with cache := full }) maxOps) := by
  intro cache hCache
  have hEnv : IsFor tx ⟨script.encode, some context, maxOps⟩ := by
    intro other hOther
    rw [← Option.some.inj hOther]
    exact hContext
  obtain ⟨after, hRun, hAfter⟩ :=
    matches_runBalanced hFull hEnv script.chunks (State.start stack) cache hCache
  refine ⟨after, ?_, hAfter⟩
  have hSame : Env.withCache ⟨script.encode, some context, maxOps⟩ full =
      ⟨script.encode, some { context with cache := full }, maxOps⟩ := rfl
  unfold execute Machine.execute
  rw [hRun, hSame]
  cases Machine.runBalanced ⟨script.encode, some { context with cache := full }, maxOps⟩
    script.chunks (State.start stack) with
  | ok done state => rfl
  | error failure state => rfl

/-- A script has the verdict that it has beside a full cache. -/
theorem answers_evaluate (hFull : full.Serves tx) (hContext : context.cache.tx = tx)
    (script : Script) (stack : Stack) (maxOps : Nat) :
    DigestCache.Answers tx (evaluate script stack (some context) maxOps)
      (Machine.evaluate script stack (some { context with cache := full }) maxOps) := by
  refine (answers_execute hFull hContext script stack maxOps).bind ?_
  unfold Machine.evaluate
  obtain ⟨result, state⟩ :=
    Machine.execute script stack (some { context with cache := full }) maxOps
  cases result with
  | ok done => exact DigestCache.answers_pure _
  | error failure => exact DigestCache.answers_pure _

end Cached

end UtxoChain.Machine
