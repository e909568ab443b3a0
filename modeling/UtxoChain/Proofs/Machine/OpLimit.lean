import UtxoChain.Proofs.Machine.Conditional
import UtxoChain.Proofs.Machine.Paired

/-!
# The limit on opcodes

A script is run under a limit and under a higher one. As long as the lower limit is kept, the two runs
are one and the same. Where the lower limit is exceeded, its run ends one opcode past it, and the other
run, whatever becomes of it, has counted more than the lower limit allows (`Raises`). Counting an opcode
keeps this, and everything else in a run does not touch the count (`paired_raised`).

What is counted can be read off the chunks (`opCount_eq_of_runChunks`): every conditional, wherever it
stands, and every other opcode that is executed. A payload is never counted.
-/

namespace UtxoChain.Machine

open Stateful
open Script (conditionals conditionals_cons conditionals_cons_plain)

/-! ## A higher limit -/

/-- Of the results of two runs, of which the first is under the given limit and the second under a
higher one: they are the same and within the limit, or the first exceeds it and so does the count of
the second. -/
inductive Raises (limit : Nat) {α : Type} :
    EStateM.Result ScriptFailure State α → EStateM.Result ScriptFailure State α → Prop
  /-- Both end well. -/
  | ok (value : α) {state : State} (hCount : state.opCount ≤ limit) :
      Raises limit (.ok value state) (.ok value state)
  /-- Both fail, and not because of too many opcodes. -/
  | error {failure : ScriptFailure} {state : State} (hFailure : failure.isOpLimit = false)
      (hCount : state.opCount ≤ limit) : Raises limit (.error failure state) (.error failure state)
  /-- The limit is exceeded. -/
  | exceeds {state : State} {result : EStateM.Result ScriptFailure State α}
      (hCount : state.opCount = limit + 1) (hMore : limit < (lastState result).opCount) :
      Raises limit (.error (.opLimitExceeded limit) state) result

/-- A step under a limit, and the same under a higher one. -/
structure Raised (limit : Nat) {α : Type} (low high : Step α) : Prop where
  /-- From a state within the limit, the results are the same unless the limit is exceeded. -/
  raises : ∀ state, state.opCount ≤ limit → Raises limit (low state) (high state)
  /-- Under the higher limit the count never falls. -/
  grows : ∀ state, state.opCount ≤ (lastState (high state)).opCount

section

variable {α β : Type} {limit : Nat}

/-- A step that does not touch the count is the same under every limit. -/
theorem Uncounted.raised {step : Step α} (h : Uncounted step) : Raised limit step step := by
  refine ⟨fun state hState => ?_, fun state => (h state).1.ge⟩
  obtain ⟨hCount, hFailure⟩ := h state
  cases hResult : step state with
  | ok value after =>
    rw [hResult] at hCount
    exact .ok value (hCount.trans_le hState)
  | error failure after =>
    rw [hResult] at hCount
    exact .error (hFailure failure after hResult) (hCount.trans_le hState)

/-- Steps in a row are the same unless the limit is exceeded in one of them. -/
theorem Raised.bind {low high : Step α} {next after : α → Step β} (hFirst : Raised limit low high)
    (hNext : ∀ value, Raised limit (next value) (after value)) :
    Raised limit (low >>= next) (high >>= after) := by
  -- Whatever the second run goes on with, its count does not fall below that of the first step.
  have hGrows : ∀ state, (lastState (high state)).opCount ≤
      (lastState ((high >>= after) state)).opCount := by
    intro state
    cases hResult : high state with
    | ok value middle =>
      rw [bind_of_ok hResult]
      exact (hNext value).grows middle
    | error failure stop =>
      rw [bind_of_error hResult]
      exact Nat.le_refl _
  refine ⟨fun state hState => ?_, fun state => (hFirst.grows state).trans (hGrows state)⟩
  have hRaises := hFirst.raises state hState
  have hMore := hGrows state
  generalize hLow : low state = lowResult at hRaises
  generalize hHigh : high state = highResult at hRaises hMore
  cases hRaises with
  | ok value hCount =>
    rw [bind_of_ok hLow, bind_of_ok hHigh]
    exact (hNext value).raises _ hCount
  | error hFailure hCount =>
    rw [bind_of_error hLow, bind_of_error hHigh]
    exact .error hFailure hCount
  | exceeds hCount hOver =>
    rw [bind_of_error hLow]
    exact .exceeds hCount (hOver.trans_le hMore)

variable {scriptCode : Bytes} {context : Option Context} {higher : Nat}

/-- An opcode is counted under both limits, or exceeds the lower one. -/
theorem raised_countOp (h : limit ≤ higher) :
    Raised limit (countOp ⟨scriptCode, context, limit⟩) (countOp ⟨scriptCode, context, higher⟩) := by
  have hCounted : ∀ state, (lastState (countOp ⟨scriptCode, context, higher⟩ state)).opCount =
      state.opCount + 1 := by
    intro state
    rw [countOp_eq]
    split_ifs <;> rfl
  refine ⟨fun state hState => ?_, fun state => ?_⟩
  · have hMore := hCounted state
    rw [countOp_eq ⟨scriptCode, context, limit⟩]
    split_ifs with hOver
    · exact .exceeds (Nat.le_antisymm (Nat.succ_le_succ hState) hOver) (hMore ▸ hOver)
    · have hBelow : ¬ higher < state.opCount + 1 := fun hHigher => hOver (h.trans_lt hHigher)
      rw [countOp_eq, if_neg hBelow]
      exact .ok () (Nat.le_of_not_lt hOver)
  · rw [hCounted]
    exact Nat.le_succ _

/-- An opcode does the same under every limit, and counts nothing. -/
theorem raised_step (op : Opcode) :
    Raised limit (step ⟨scriptCode, context, limit⟩ op) (step ⟨scriptCode, context, higher⟩ op) := by
  have hSame : step ⟨scriptCode, context, limit⟩ op = step ⟨scriptCode, context, higher⟩ op := by
    cases op <;> rfl
  rw [hSame]
  exact (inherited_uncounted.step _ op).raised

/-- Runs inherit from their opcodes that they are the same unless the limit is exceeded. -/
theorem paired_raised (h : limit ≤ higher) :
    Paired ⟨scriptCode, context, limit⟩ ⟨scriptCode, context, higher⟩ (Raised limit) where
  same := Uncounted.raised
  countOp := raised_countOp h
  bind := Raised.bind

end

/-! ## What is counted -/

/-- An opcode that is counted where it is executed: a chunk without payload that is no conditional. -/
def isPlain (chunk : Chunk) : Bool :=
  chunk.payload.isNone && chunk.conditional?.isNone

/-- The chunks that a run executes, in the order in which it comes to them. -/
def executed (env : Env) : List Chunk → State → List Chunk
  | [], _ => []
  | chunk :: rest, state =>
    (if state.executing then [chunk] else []) ++
      match stepChunk env chunk state with
      | .ok .next after => executed env rest after
      | _ => []

section

variable {env : Env} {chunk : Chunk} {chunks : List Chunk} {state after : State}

/-- A step that does not touch the count keeps it where it ends well. -/
theorem Uncounted.opCount_eq {α : Type} {step : Step α} (h : Uncounted step) {value : α}
    (hStep : step state = .ok value after) : after.opCount = state.opCount := by
  have hCount := (h state).1
  rw [hStep] at hCount
  exact hCount

/-- An opcode that is executed and does not end the script is counted. -/
theorem opCount_eq_of_stepChunk_plain (hPlain : chunk.conditional? = none)
    (hPayload : chunk.payload = none) (hExecuting : state.executing = true)
    (hStep : stepChunk env chunk state = .ok .next after) : after.opCount = state.opCount + 1 := by
  have hOther := Chunk.conditional?_eq_none_iff.1 hPlain hPayload
  cases hOp : chunk.op? with
  | none =>
    have hByte : Opcode.ofByte? chunk.opcode = none := hOp
    rw [stepChunk_eq_stepOpcode hPayload, hExecuting] at hStep
    unfold stepOpcode at hStep
    rw [hByte] at hStep
    exact absurd hStep nofun
  | some op =>
    by_cases hReturn : op = .returnOp
    · have hStops : Stops chunk state := ⟨hPayload, hReturn ▸ hOp, hExecuting⟩
      have hStopped : stepChunk env chunk state = .ok .stop state :=
        stepChunk_stop_iff.2 ⟨hStops, rfl⟩
      rw [hStopped] at hStep
      exact absurd hStep nofun
    · rw [stepChunk_eq_stepOpcode hPayload, hExecuting] at hStep
      obtain ⟨-, -, hPerformed, -⟩ := (stepOpcode_ok_iff hOp (hOther op hOp) hReturn).1 hStep
      exact (inherited_uncounted.step env op).opCount_eq hPerformed

/-- A chunk is counted if it is a conditional, or if it is executed and a plain opcode. -/
theorem opCount_eq_of_stepChunk (hStep : stepChunk env chunk state = .ok .next after) :
    after.opCount = state.opCount + conditionals [chunk] +
      (if state.executing then [chunk] else []).countP isPlain := by
  cases hConditional : chunk.conditional? with
  | some op =>
    have hNotPlain : (if state.executing then [chunk] else []).countP isPlain = 0 := by
      split_ifs <;> simp [isPlain, hConditional]
    rw [stepChunk_conditional hConditional] at hStep
    rw [conditionals_cons hConditional, hNotPlain]
    obtain ⟨_, middle, hCounted, hRest⟩ := bind_ok_iff.1 hStep
    obtain ⟨-, rfl⟩ := countOp_ok_iff.1 hCounted
    have hSteered : Uncounted (stepConditional op state.executing >>= fun _ => pure Flow.next) :=
      (uncounted_stepConditional op _).bind fun _ => inherited_uncounted.pure _
    exact hSteered.opCount_eq hRest
  | none =>
    rw [conditionals_cons_plain hConditional]
    cases hExecuting : state.executing with
    | false =>
      rw [stepChunk_skip hExecuting (Chunk.conditional?_eq_none_iff.1 hConditional)] at hStep
      obtain ⟨-, rfl⟩ := EStateM.Result.ok.inj hStep
      rfl
    | true =>
      cases hPayload : chunk.payload with
      | some data =>
        obtain ⟨-, -, -, rfl⟩ := (stepChunk_push_ok_iff hPayload hExecuting).1 hStep
        simp [isPlain, hPayload, conditionals]
      | none =>
        rw [opCount_eq_of_stepChunk_plain hConditional hPayload hExecuting hStep]
        simp [isPlain, hConditional, hPayload, conditionals]

/-- A run that ends well without an early end has counted the conditionals among its chunks, executed
or not, and the plain opcodes among those that it executed. -/
theorem opCount_eq_of_runChunks (hReturn : ¬ MeetsReturn env chunks state) {done : Unit}
    (hRun : runChunks env chunks state = .ok done after) :
    after.opCount =
      state.opCount + conditionals chunks + (executed env chunks state).countP isPlain := by
  induction chunks generalizing state with
  | nil =>
    rw [runChunks_nil_ok_iff.1 hRun]
    rfl
  | cons chunk rest ih =>
    rw [runChunks] at hRun
    obtain ⟨flow, middle, hStep, hRest⟩ := bind_ok_iff.1 hRun
    cases flow with
    | stop =>
      have hStops : Stops chunk state := (stepChunk_stop_iff.1 hStep).1
      exact absurd ⟨chunk, rest, state, .start, hStops⟩ hReturn
    | next =>
      have hLater := ih (fun hMeets => hReturn (hMeets.cons hStep)) hRest
      have hFirst := opCount_eq_of_stepChunk hStep
      have hConditionals : conditionals ([chunk] ++ rest) = conditionals [chunk] + conditionals rest :=
        List.countP_append
      rw [List.singleton_append] at hConditionals
      rw [executed, hStep, List.countP_append, hConditionals]
      dsimp only
      omega

end

/-! ## Whole scripts -/

section

variable {script : Script} {stack : Stack} {context : Option Context} {limit higher : Nat}

/-- Under a limit that is not lower a script ends in the same way within the lower one, or the lower
one is exceeded by one, and the count under the other is above it. -/
theorem execute_raises (h : limit ≤ higher) :
    (execute script stack context higher = execute script stack context limit ∧
      (execute script stack context limit).2.opCount ≤ limit ∧
      ∀ other, (execute script stack context limit).1 ≠ .error (.opLimitExceeded other)) ∨
    ((execute script stack context limit).1 = .error (.opLimitExceeded limit) ∧
      (execute script stack context limit).2.opCount = limit + 1 ∧
      limit < (execute script stack context higher).2.opCount) := by
  have hRun : Raised limit (runBalanced ⟨script.encode, context, limit⟩ script.chunks)
      (runBalanced ⟨script.encode, context, higher⟩ script.chunks) :=
    (paired_raised h).runBalanced fun _ _ _ op _ => raised_step op
  have hRaises := hRun.raises (State.start stack) (Nat.zero_le limit)
  unfold execute
  generalize runBalanced ⟨script.encode, context, limit⟩ _ _ = low at hRaises ⊢
  generalize runBalanced ⟨script.encode, context, higher⟩ _ _ = high at hRaises ⊢
  cases hRaises with
  | ok done hCount => exact .inl ⟨rfl, hCount, nofun⟩
  | error hFailure hCount =>
    refine .inl ⟨rfl, hCount, fun other hOther => ?_⟩
    rw [Except.error.inj hOther] at hFailure
    exact absurd hFailure nofun
  | exceeds hCount hMore =>
    cases high with
    | ok done final => exact .inr ⟨rfl, hCount, hMore⟩
    | error failure final => exact .inr ⟨rfl, hCount, hMore⟩

/-- A script that ends well without an early end has counted its conditionals, executed or not, and the
plain opcodes that it executed. -/
theorem opCount_eq_of_execute {final : State}
    (hReturn : ¬ MeetsReturn ⟨script.encode, context, limit⟩ script.chunks (State.start stack))
    (hRun : execute script stack context limit = (.ok (), final)) :
    final.opCount = conditionals script.chunks +
      (executed ⟨script.encode, context, limit⟩ script.chunks (State.start stack)).countP isPlain := by
  have hCount := opCount_eq_of_runChunks hReturn (execute_eq_ok_iff.1 hRun).1
  have hStart : (State.start stack).opCount = 0 := rfl
  omega

end

/-- Of the runs of a script under a limit and under one that is not lower: unless the lower limit is
exceeded, they end with the same result in the same state, within the limit. It is exceeded exactly if
the count of the second run is above it, and then the count is one more than the limit. A run that
ends well without an early end has counted the conditionals of the script, executed or skipped, and
the executed chunks that are neither payloads nor conditionals. -/
theorem execute_raise (script : Script) (stack : Stack) (context : Option Context)
    (limit higher : Nat) (h : limit ≤ higher) :
    ((∀ other, (execute script stack context limit).1 ≠ .error (.opLimitExceeded other)) →
      execute script stack context higher = execute script stack context limit ∧
        (execute script stack context limit).2.opCount ≤ limit) ∧
    ((∃ other, (execute script stack context limit).1 = .error (.opLimitExceeded other)) ↔
      limit < (execute script stack context higher).2.opCount) ∧
    (∀ other, (execute script stack context limit).1 = .error (.opLimitExceeded other) →
      other = limit ∧ (execute script stack context limit).2.opCount = limit + 1) ∧
    ∀ final, execute script stack context limit = (.ok (), final) →
      ¬ MeetsReturn ⟨script.encode, context, limit⟩ script.chunks (State.start stack) →
      final.opCount = conditionals script.chunks +
        (executed ⟨script.encode, context, limit⟩ script.chunks (State.start stack)).countP
          isPlain := by
  rcases execute_raises h with ⟨hSame, hCount, hKept⟩ | ⟨hOver, hCount, hMore⟩
  · have hWithin : ¬ limit < (execute script stack context higher).2.opCount := by
      rw [hSame]
      exact Nat.not_lt.2 hCount
    refine ⟨fun _ => ⟨hSame, hCount⟩, ⟨?_, fun hMore => absurd hMore hWithin⟩,
      fun other hOther => absurd hOther (hKept other),
      fun _ hRun hReturn => opCount_eq_of_execute hReturn hRun⟩
    rintro ⟨other, hOther⟩
    exact absurd hOther (hKept other)
  · refine ⟨fun hKept => absurd hOver (hKept limit), ⟨fun _ => hMore, fun _ => ⟨limit, hOver⟩⟩, ?_,
      fun _ hRun hReturn => opCount_eq_of_execute hReturn hRun⟩
    intro other hOther
    have hFailure := Except.error.inj (hOther.symm.trans hOver)
    exact ⟨ScriptFailure.opLimitExceeded.inj hFailure, hCount⟩

end UtxoChain.Machine

namespace UtxoChain.Sample

open Machine

/-- The script `1 NOTIF 2 ELSE 0x0b 3 ENDIF`, of which the first branch is skipped. -/
def secondBranch : Script :=
  ⟨[.ofOpcode .op1, .ofOpcode .notIfOp, .ofOpcode .op2, .ofOpcode .elseOp, ⟨1, some [11]⟩,
    .ofOpcode .op3, .ofOpcode .endIfOp]⟩

/-- The script counts three conditionals and two opcodes, but neither the skipped opcode nor the
payload. Under a limit of five it ends as under any higher one, and under a limit of three it fails at
the fourth. -/
theorem execute_secondBranch :
    3 ≤ 9 ∧ 5 ≤ 9 ∧
      execute secondBranch [] none 9 = execute secondBranch [] none 5 ∧
      (execute secondBranch [] none 9).2.opCount = 3 + 2 ∧
      (execute secondBranch [] none 3).2.opCount = 4 := by
  obtain ⟨hSame, -, -, hCounted⟩ := execute_raise secondBranch [] none 5 9 (by decide)
  obtain ⟨-, -, hOver, -⟩ := execute_raise secondBranch [] none 3 9 (by decide)
  have hEnds : execute secondBranch [] none 5 = (.ok (), ⟨[[3], [11]], [], [], 5⟩) := by
    decide +kernel
  have hKept : execute secondBranch [] none 9 = execute secondBranch [] none 5 := by
    refine (hSame fun other => ?_).1
    rw [hEnds]
    exact nofun
  have hCount := hCounted _ hEnds (not_meetsReturn (by decide))
  have hExceeds : (execute secondBranch [] none 3).1 = .error (.opLimitExceeded 3) := by
    decide +kernel
  refine ⟨by decide, by decide, hKept, ?_, (hOver 3 hExceeds).2⟩
  rw [hKept, hEnds, hCount]
  decide +kernel

end UtxoChain.Sample
