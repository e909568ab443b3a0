import UtxoChain.Machine.Run
import UtxoChain.Proofs.Machine.Parts

/-!
# Two runs of one script

A script is run in two environments. These differ in how opcodes are counted and in what an opcode
does; every other step of a run is the same for both, and does not touch the count (`Uncounted`). So a
relation that holds where an opcode is counted and of what it does holds of the two runs, if it holds
of steps that are the same and is inherited by steps in a row (`Paired`).

Not to touch the count is one case of keeping a part of the state and failing in some ways only, which
steps in a row inherit whatever the part and the ways are (`Spares`).
-/

namespace UtxoChain.Machine

/-- The state in which a step ends, well or not. -/
def lastState {α : Type} : EStateM.Result ScriptFailure State α → State
  | .ok _ state => state
  | .error _ state => state

/-! ## What a step leaves alone -/

/-- A step keeps what is seen of the state, and fails only in some ways. -/
def Spares {σ α : Type} (view : State → σ) (allowed : ScriptFailure → Prop) (step : Step α) : Prop :=
  ∀ state, view (lastState (step state)) = view state ∧
    ∀ failure after, step state = .error failure after → allowed failure

section

variable {σ α β : Type} {view : State → σ} {allowed : ScriptFailure → Prop}

/-- A step that only gives a value keeps the state. -/
theorem Spares.pure (value : α) : Spares view allowed (pure value) :=
  fun _ => ⟨rfl, nofun⟩

/-- A step that only fails keeps the state. -/
theorem Spares.throw {failure : ScriptFailure} (h : allowed failure) :
    Spares view allowed (throw failure : Step α) :=
  fun _ => ⟨rfl, fun _ _ hFailure => (EStateM.Result.error.inj hFailure).1 ▸ h⟩

/-- Reading the state keeps it. -/
theorem Spares.get : Spares view allowed (get : Step State) :=
  fun _ => ⟨rfl, nofun⟩

/-- Two steps keep in a row what each of them keeps. -/
theorem Spares.bind {first : Step α} {next : α → Step β} (hFirst : Spares view allowed first)
    (hNext : ∀ value, Spares view allowed (next value)) :
    Spares view allowed (first >>= next) := by
  intro state
  obtain ⟨hKept, hFailure⟩ := hFirst state
  cases hResult : first state with
  | ok value middle =>
    rw [hResult] at hKept
    obtain ⟨hNextKept, hNextFailure⟩ := hNext value middle
    rw [Stateful.bind_of_ok hResult]
    exact ⟨hNextKept.trans hKept, hNextFailure⟩
  | error failure after =>
    rw [hResult] at hKept hFailure
    rw [Stateful.bind_of_error hResult]
    refine ⟨hKept, fun found final hFound => ?_⟩
    obtain ⟨rfl, rfl⟩ := EStateM.Result.error.inj hFound
    exact hFailure _ _ rfl

/-- Whichever of two steps is made keeps what it keeps where it is made. -/
theorem Spares.ite {condition : Prop} [Decidable condition] {first second : Step α}
    (hFirst : condition → Spares view allowed first) (hSecond : Spares view allowed second) :
    Spares view allowed (if condition then first else second) := by
  split_ifs with h
  · exact hFirst h
  · exact hSecond

end

/-! ## Steps that do not touch the count -/

/-- A step keeps the count of opcodes, and does not fail because there were too many. -/
def Uncounted {α : Type} (step : Step α) : Prop :=
  ∀ state, (lastState (step state)).opCount = state.opCount ∧
    ∀ failure after, step state = .error failure after → failure.isOpLimit = false

section

variable {α β : Type}

/-- What does not touch the count keeps it. -/
theorem uncounted_iff_spares {step : Step α} :
    Uncounted step ↔ Spares State.opCount (·.isOpLimit = false) step :=
  Iff.rfl

/-- A step does not touch the count if no part of it does. -/
theorem Uncounted.bind {first : Step α} {next : α → Step β} (hFirst : Uncounted first)
    (hNext : ∀ value, Uncounted (next value)) : Uncounted (first >>= next) :=
  uncounted_iff_spares.2 (Spares.bind hFirst hNext)

/-- Changing something else does not touch the count. -/
theorem uncounted_modify {update : State → State}
    (hCount : ∀ state, (update state).opCount = state.opCount) :
    Uncounted (modify update : Step Unit) :=
  fun state => ⟨hCount state, fun _ _ h => absurd h Stateful.modify_ne_error⟩

/-- Reading the state does not touch the count. -/
theorem uncounted_get : Uncounted (get : Step State) :=
  uncounted_iff_spares.2 .get

/-- Moving an item back from the alternative stack does not touch the count. -/
theorem uncounted_fromAltStack (env : Env) : Uncounted (step env .fromAltStack) := by
  intro state
  obtain ⟨stack, alt, branches, opCount⟩ := state
  cases alt with
  | nil => exact ⟨rfl, fun _ _ h => (EStateM.Result.error.inj h).1 ▸ rfl⟩
  | cons item alt => exact ⟨rfl, nofun⟩

/-- Opcodes do not touch the count, for their parts do not. -/
theorem inherited_uncounted : Inherited Uncounted where
  pure value := uncounted_iff_spares.2 (.pure value)
  throw hFailure := uncounted_iff_spares.2 (.throw hFailure)
  bind := Uncounted.bind
  getStack := fun _ => ⟨rfl, nofun⟩
  setStack _ := uncounted_modify fun _ => rfl
  placeAlt _ := uncounted_modify fun _ => rfl
  fromAltStack := uncounted_fromAltStack

/-- The check of the depth does not touch the count. -/
theorem uncounted_checkDepth : Uncounted checkDepth :=
  uncounted_get.bind fun _ => inherited_uncounted.ite (inherited_uncounted.throw rfl)
    (inherited_uncounted.pure ())

/-- The check at the end does not touch the count. -/
theorem uncounted_checkBalance : Uncounted checkBalance :=
  uncounted_get.bind fun _ => inherited_uncounted.ite (inherited_uncounted.pure ())
    (inherited_uncounted.throw rfl)

/-- Opening, turning and closing conditionals does not touch the count. -/
theorem uncounted_stepConditional (op : Opcode) (executing : Bool) :
    Uncounted (stepConditional op executing) := by
  have hOpen : ∀ taken : Bool, Uncounted
      (modify fun state => { state with branches := taken :: state.branches } : Step Unit) :=
    fun taken => uncounted_modify fun _ => rfl
  unfold stepConditional
  split
  · exact inherited_uncounted.pop.bind fun _ => hOpen _
  · exact inherited_uncounted.pop.bind fun _ => hOpen _
  · exact hOpen false
  · exact hOpen false
  · refine uncounted_get.bind fun state => ?_
    cases state.branches with
    | nil => exact inherited_uncounted.throw rfl
    | cons taken outer => exact uncounted_modify fun _ => rfl
  · refine uncounted_get.bind fun state => ?_
    cases state.branches with
    | nil => exact inherited_uncounted.throw rfl
    | cons taken outer => exact uncounted_modify fun _ => rfl
  · exact inherited_uncounted.pure ()

end

/-! ## Runs in two environments -/

/-- A relation between steps in two environments that runs inherit from what their opcodes do. -/
structure Paired (env other : Env) (R : ∀ {α : Type}, Step α → Step α → Prop) : Prop where
  /-- A step that is the same for both and does not touch the count is related to itself. -/
  same : ∀ {α : Type} {step : Step α}, Uncounted step → R step step
  /-- Counting an opcode is related. -/
  countOp : R (Machine.countOp env) (Machine.countOp other)
  /-- Related steps in a row are related. -/
  bind : ∀ {α β : Type} {first second : Step α} {next after : α → Step β}, R first second →
    (∀ value, R (next value) (after value)) → R (first >>= next) (second >>= after)

section

variable {env other : Env} {R : ∀ {α : Type}, Step α → Step α → Prop}

/-- A chunk without payload is related if its opcode is. -/
theorem Paired.stepOpcode (h : Paired env other R) {byte : UInt8} (executing : Bool)
    (hStep : ∀ op, Opcode.ofByte? byte = some op → R (step env op) (step other op)) :
    R (Machine.stepOpcode env byte executing) (Machine.stepOpcode other byte executing) := by
  have hPure : ∀ flow : Flow, Uncounted (pure flow : Step Flow) := inherited_uncounted.pure
  unfold Machine.stepOpcode
  cases hOp : Opcode.ofByte? byte with
  | none =>
    cases executing with
    | true => exact h.same (inherited_uncounted.throw rfl)
    | false => exact h.same (hPure .next)
  | some op =>
    dsimp only
    split_ifs
    · refine h.bind h.countOp fun _ => h.same ?_
      exact (uncounted_stepConditional op executing).bind fun _ => hPure .next
    · exact h.same (hPure .stop)
    · refine h.bind h.countOp fun _ => h.bind (hStep op hOp) fun _ => h.same ?_
      exact uncounted_checkDepth.bind fun _ => hPure .next
    · exact h.same (hPure .next)

/-- A chunk is related if its opcode is, where it has no payload. -/
theorem Paired.stepChunk (h : Paired env other R) {chunk : Chunk}
    (hStep : chunk.payload = none → ∀ op, chunk.op? = some op → R (step env op) (step other op)) :
    R (Machine.stepChunk env chunk) (Machine.stepChunk other chunk) := by
  unfold Machine.stepChunk
  refine h.bind (h.same uncounted_get) fun state => ?_
  cases hPayload : chunk.payload with
  | none => exact h.stepOpcode state.executing (hStep hPayload)
  | some data =>
    refine h.same (inherited_uncounted.ite ?_ (inherited_uncounted.pure _))
    exact (inherited_uncounted.push data).bind fun _ => uncounted_checkDepth.bind fun _ =>
      inherited_uncounted.pure _

/-- Runs are related if the opcodes of their chunks are. -/
theorem Paired.runChunks (h : Paired env other R) {chunks : List Chunk}
    (hStep : ∀ chunk ∈ chunks, chunk.payload = none → ∀ op, chunk.op? = some op →
      R (step env op) (step other op)) :
    R (Machine.runChunks env chunks) (Machine.runChunks other chunks) := by
  induction chunks with
  | nil => exact h.same (inherited_uncounted.pure ())
  | cons chunk rest ih =>
    obtain ⟨hChunk, hRest⟩ := List.forall_mem_cons.1 hStep
    refine h.bind (h.stepChunk hChunk) fun flow => ?_
    cases flow with
    | next => exact ih hRest
    | stop => exact h.same (inherited_uncounted.pure ())

/-- Runs with their last check are related if the opcodes of their chunks are. -/
theorem Paired.runBalanced (h : Paired env other R) {chunks : List Chunk}
    (hStep : ∀ chunk ∈ chunks, chunk.payload = none → ∀ op, chunk.op? = some op →
      R (step env op) (step other op)) :
    R (Machine.runBalanced env chunks) (Machine.runBalanced other chunks) :=
  h.bind (h.runChunks hStep) fun _ => h.same uncounted_checkBalance

end

end UtxoChain.Machine
