import UtxoChain.Proofs.Machine.EarlyEnd
import UtxoChain.Proofs.Machine.Framed

/-!
# Flat conditionals are structured ones

The machine knows no blocks. It keeps a list of truth values, which `IF` and `NOTIF` extend, `ELSE`
turns and `ENDIF` shortens, in skipped code too, and executes what stands where all of them are
true. For branches that nest this is the conditional of a structured language
(`conditional_runsAs_select`).

The branch that is not taken is passed over: the value of its conditional is false and stands below
those that are opened inside, so that nothing in the branch is executed, however these are turned
(`passesOver_of_nests`). The branch that is taken is run side by side with the same chunks outside
of the conditional. The two states differ by one true value in the list and by the count (`Inside`);
opcodes see neither, and a conditional in a branch that nests never reaches down to that value. One
chunk keeps the relation (`mirrors_stepChunk_plain`, `mirrors_stepChunk_conditional`), and with it
the run does (`embeds_of_nests`).
-/

namespace UtxoChain.Machine

open Stateful
open Script (Nests conditionals conditionals_cons conditionals_cons_plain)

variable {env : Env} {chunk : Chunk} {op : Opcode} {chunks rest : List Chunk} {state next : State}

/-! ## One conditional -/

/-- A conditional is counted and steers, in skipped branches too. -/
theorem stepChunk_conditional (h : chunk.conditional? = some op) (env : Env) (state : State) :
    stepChunk env chunk state =
      (do
        countOp env
        stepConditional op state.executing
        return .next : Step Flow) state := by
  obtain ⟨hPayload, hOp, hConditional⟩ := Chunk.conditional?_eq_some_iff.1 h
  have hByte : Opcode.ofByte? chunk.opcode = some op := hOp
  rw [stepChunk_eq_stepOpcode hPayload]
  unfold stepOpcode
  rw [hByte]
  dsimp only
  rw [if_pos hConditional]

/-- A run goes on after a conditional that leads to a known state, unless the limit is exceeded. -/
theorem runChunks_conditional (h : chunk.conditional? = some op)
    (hStep : stepConditional op state.executing { state with opCount := state.opCount + 1 } =
      .ok () next) (env : Env) (rest : List Chunk) :
    runChunks env (chunk :: rest) state =
      if env.maxOps < state.opCount + 1 then
        .error (.opLimitExceeded env.maxOps) { state with opCount := state.opCount + 1 }
      else runChunks env rest next := by
  have hCount := countOp_eq env state
  rw [runChunks]
  split_ifs at hCount ⊢
  · refine bind_of_error ?_
    rw [stepChunk_conditional h]
    exact bind_of_error hCount
  · have hChunk : stepChunk env chunk state = .ok .next next := by
      rw [stepChunk_conditional h, bind_of_ok hCount, bind_of_ok hStep]
      rfl
    rw [bind_of_ok hChunk]

/-- In a skipped branch a conditional that is opened is not taken. -/
theorem stepConditional_opens_skipped (hOp : op = .ifOp ∨ op = .notIfOp) :
    stepConditional op false state = .ok () { state with branches := false :: state.branches } := by
  rcases hOp with rfl | rfl <;> rfl

/-! ## Skipped branches -/

/-- A run that passes over some chunks goes on with the others where only the count has grown, by
the conditionals passed over, unless their number exceeds the limit. -/
def PassesOver (env : Env) (passed rest : List Chunk) (outer : List Bool) (state : State) : Prop :=
  runChunks env (passed ++ rest) state =
      runChunks env rest (state.reframe outer (state.opCount + conditionals passed)) ∨
    env.maxOps < state.opCount + conditionals passed ∧
      ∃ final, runChunks env (passed ++ rest) state = .error (.opLimitExceeded env.maxOps) final

/-- A conditional that only steers is passed over if what follows it is. -/
theorem PassesOver.cons {outer branches : List Bool} (h : chunk.conditional? = some op)
    (hStep : stepConditional op state.executing { state with opCount := state.opCount + 1 } =
      .ok () (state.reframe branches (state.opCount + 1)))
    (hRest : PassesOver env chunks rest outer (state.reframe branches (state.opCount + 1))) :
    PassesOver env (chunk :: chunks) rest outer state := by
  have hTotal : state.opCount + 1 + conditionals chunks =
      state.opCount + conditionals (chunk :: chunks) := by
    rw [conditionals_cons h]
    omega
  unfold PassesOver at hRest ⊢
  rw [List.cons_append, runChunks_conditional h hStep]
  change _ = runChunks env rest (state.reframe outer (state.opCount + 1 + conditionals chunks)) ∨
    env.maxOps < state.opCount + 1 + conditionals chunks ∧ _ at hRest
  rw [hTotal] at hRest
  split_ifs with hOver
  · exact .inr ⟨by omega, _, rfl⟩
  · exact hRest

/-- Below a branch that is not taken, nothing is executed. -/
theorem executing_eq_false {inner outer : List Bool} (hOuter : outer.all id = false)
    (hBranches : state.branches = inner ++ outer) : state.executing = false := by
  rw [State.executing, hBranches, List.all_append, hOuter, Bool.and_false]

/-- Below a branch that is not taken, chunks that nest are passed over. Nothing in them can turn
that branch, so none of them is executed, however the conditionals that they open are turned. -/
theorem passesOver_of_nests {outer : List Bool} (hOuter : outer.all id = false) {depth : Nat}
    (h : Nests depth chunks) {inner : List Bool} (hDepth : inner.length = depth)
    (hBranches : state.branches = inner ++ outer) : PassesOver env chunks rest outer state := by
  -- The values above those of the outer conditionals are as many as the depth, whatever they are.
  induction h generalizing inner state with
  | nil =>
    obtain rfl := List.length_eq_zero_iff.1 hDepth
    refine .inl ?_
    rw [State.reframe, ← List.nil_append outer, ← hBranches]
    rfl
  | @plain depth chunk chunks hPlain _ ih =>
    have hSkipped := executing_eq_false hOuter hBranches
    unfold PassesOver
    rw [List.cons_append, runChunks_skip hSkipped (Chunk.conditional?_eq_none_iff.1 hPlain),
      conditionals_cons_plain hPlain]
    exact ih hDepth hBranches
  | @opens depth chunk op chunks hChunk hOp _ ih =>
    have hOpened : stepConditional op state.executing
        { state with opCount := state.opCount + 1 } =
        .ok () (state.reframe (false :: state.branches) (state.opCount + 1)) := by
      rw [executing_eq_false hOuter hBranches]
      exact stepConditional_opens_skipped hOp
    have hInner : (false :: inner).length = depth + 1 := by rw [List.length_cons, hDepth]
    refine .cons hChunk hOpened (ih hInner ?_)
    rw [hBranches]
    rfl
  | @turns depth chunk chunks hChunk _ ih =>
    obtain ⟨taken, inner, rfl⟩ := List.exists_cons_of_length_eq_add_one hDepth
    have hTurned : stepConditional .elseOp state.executing
        { state with opCount := state.opCount + 1 } =
        .ok () (state.reframe ((!taken) :: (inner ++ outer)) (state.opCount + 1)) :=
      stepConditional_elseOp hBranches
    have hInner : ((!taken) :: inner).length = depth + 1 := hDepth
    exact .cons hChunk hTurned (ih hInner rfl)
  | @closes depth chunk chunks hChunk _ ih =>
    obtain ⟨taken, inner, rfl⟩ := List.exists_cons_of_length_eq_add_one hDepth
    have hClosed : stepConditional .endIfOp state.executing
        { state with opCount := state.opCount + 1 } =
        .ok () (state.reframe (inner ++ outer) (state.opCount + 1)) :=
      stepConditional_endIfOp hBranches
    exact .cons hChunk hClosed (ih (Nat.succ.inj hDepth) rfl)

/-! ## Runs below a taken branch -/

/-- Of two states with the same stacks, the second has one conditional more, which is taken, below
the innermost `depth` of the first and above the outer ones, and a count larger by `extra`. -/
def Inside (outer : List Bool) (extra depth : Nat) (direct flat : State) : Prop :=
  ∃ inner : List Bool, inner.length = depth ∧ direct.branches = inner ++ outer ∧
    flat = direct.reframe (inner ++ true :: outer) (direct.opCount + extra)

/-- Of two results, the second is the first in a state inside, unless the limit is exceeded. After a
failure any number of conditionals may be open inside. -/
inductive Mirrors (env : Env) (outer : List Bool) (extra depth : Nat) {α : Type} :
    EStateM.Result ScriptFailure State α → EStateM.Result ScriptFailure State α → Prop
  /-- Both end well. -/
  | ok {direct flat : State} (value : α) (h : Inside outer extra depth direct flat) :
      Mirrors env outer extra depth (.ok value direct) (.ok value flat)
  /-- Both fail. -/
  | error {other : Nat} {direct flat : State} (failure : ScriptFailure)
      (h : Inside outer extra other direct flat) :
      Mirrors env outer extra depth (.error failure direct) (.error failure flat)
  /-- The count exceeds the limit. -/
  | limit {result : EStateM.Result ScriptFailure State α} {flat : State} :
      Mirrors env outer extra depth result (.error (.opLimitExceeded env.maxOps) flat)

section Inside

variable {α β : Type} {outer : List Bool} {extra depth : Nat} {direct flat : State}

/-- What is executed in one of the states is executed in the other. -/
theorem Inside.executing_eq (h : Inside outer extra depth direct flat) :
    flat.executing = direct.executing := by
  obtain ⟨inner, -, hBranches, rfl⟩ := h
  change (inner ++ true :: outer).all id = direct.branches.all id
  rw [hBranches, List.all_append, List.all_append, List.all_cons]
  rfl

/-- Steps mirror each other if their parts do. -/
theorem Mirrors.bind {middle : Nat} {first : Step α} {next : α → Step β}
    (hFirst : Mirrors env outer extra middle (first direct) (first flat))
    (hNext : ∀ value direct flat, Inside outer extra middle direct flat →
      Mirrors env outer extra depth (next value direct) (next value flat)) :
    Mirrors env outer extra depth ((first >>= next) direct) ((first >>= next) flat) := by
  generalize hDirect : first direct = directResult at hFirst
  generalize hFlat : first flat = flatResult at hFirst
  cases hFirst with
  | ok value h =>
    rw [bind_of_ok hDirect, bind_of_ok hFlat]
    exact hNext value _ _ h
  | error failure h =>
    rw [bind_of_error hDirect, bind_of_error hFlat]
    exact .error failure h
  | limit =>
    rw [bind_of_error hFlat]
    exact .limit

/-- A step that sees only the stacks ends alike. -/
theorem Framed.mirrors {step : Step α} (h : Framed step)
    (hInside : Inside outer extra depth direct flat) :
    Mirrors env outer extra depth (step direct) (step flat) := by
  obtain ⟨inner, hDepth, hBranches, rfl⟩ := hInside
  have hKept := h.mapState_eq direct
  rw [h]
  cases hResult : step direct with
  | ok value after =>
    rw [hResult] at hKept
    obtain ⟨-, hAfter⟩ := EStateM.Result.ok.inj hKept
    rw [← hAfter]
    exact .ok value ⟨inner, hDepth, hBranches, rfl⟩
  | error failure after =>
    rw [hResult] at hKept
    obtain ⟨-, hAfter⟩ := EStateM.Result.error.inj hKept
    rw [← hAfter]
    exact .error failure ⟨inner, hDepth, hBranches, rfl⟩

/-- An opcode is counted in both, unless the limit is exceeded. -/
theorem mirrors_countOp (h : Inside outer extra depth direct flat) :
    Mirrors env outer extra depth (countOp env direct) (countOp env flat) := by
  obtain ⟨inner, hDepth, hBranches, rfl⟩ := h
  rw [countOp_eq, countOp_eq]
  change Mirrors env outer extra depth _ (if env.maxOps < direct.opCount + extra + 1 then _ else _)
  -- The count of the second state is the larger one, so the first cannot exceed the limit alone.
  split_ifs with hDirect hFlat hFlat
  · exact .limit
  · omega
  · exact .limit
  · refine .ok () ⟨inner, hDepth, hBranches, ?_⟩
    simp only [State.reframe, Nat.add_right_comm]

/-- A chunk that is no conditional ends alike. -/
theorem mirrors_stepChunk_plain (hPlain : chunk.conditional? = none)
    (h : Inside outer extra depth direct flat) :
    Mirrors env outer extra depth (stepChunk env chunk direct) (stepChunk env chunk flat) := by
  have hExecuting := h.executing_eq
  obtain ⟨opcode, payload⟩ := chunk
  cases payload with
  | some data =>
    change Mirrors _ _ _ _ ((if direct.executing then _ else _ : Step Flow) direct)
      ((if flat.executing then _ else _ : Step Flow) flat)
    rw [hExecuting]
    split_ifs
    · exact ((inherited_framed.push data).bind fun _ =>
        framed_checkDepth.bind fun _ => inherited_framed.pure _).mirrors h
    · exact .ok _ h
  | none =>
    have hOther := Chunk.conditional?_eq_none_iff.1 hPlain rfl
    rw [stepChunk_eq_stepOpcode rfl, stepChunk_eq_stepOpcode rfl, hExecuting]
    change ∀ op, Opcode.ofByte? opcode = some op → _ at hOther
    unfold stepOpcode
    cases hOp : Opcode.ofByte? opcode with
    | none =>
      cases direct.executing with
      | true => exact .error _ h
      | false => exact .ok _ h
    | some op =>
      dsimp only
      rw [hOther op hOp, if_neg Bool.false_ne_true]
      split_ifs
      · exact .ok _ h
      · exact (mirrors_countOp h).bind fun _ _ _ hCounted =>
          ((inherited_framed.step env op).bind fun _ =>
            framed_checkDepth.bind fun _ => inherited_framed.pure _).mirrors hCounted
      · exact .ok _ h

/-- A conditional ends alike if its steering does. -/
theorem mirrors_stepChunk_conditional {middle : Nat} (hChunk : chunk.conditional? = some op)
    (h : Inside outer extra middle direct flat)
    (hStep : ∀ {executing : Bool} {direct flat : State}, Inside outer extra middle direct flat →
      Mirrors env outer extra depth (stepConditional op executing direct)
        (stepConditional op executing flat)) :
    Mirrors env outer extra depth (stepChunk env chunk direct) (stepChunk env chunk flat) := by
  rw [stepChunk_conditional hChunk, stepChunk_conditional hChunk, h.executing_eq]
  exact (mirrors_countOp h).bind fun _ _ _ hCounted =>
    (hStep hCounted).bind fun _ _ _ hSteered => .ok _ hSteered

/-- A conditional is opened in both. -/
theorem mirrors_opens (hOp : op = .ifOp ∨ op = .notIfOp) {executing : Bool}
    (h : Inside outer extra depth direct flat) :
    Mirrors env outer extra (depth + 1) (stepConditional op executing direct)
      (stepConditional op executing flat) := by
  have hBranch : ∀ (taken : Bool) {direct flat : State}, Inside outer extra depth direct flat →
      Mirrors env outer extra (depth + 1)
        ((modify fun state => { state with branches := taken :: state.branches } :
          Step Unit) direct)
        ((modify fun state => { state with branches := taken :: state.branches } :
          Step Unit) flat) := by
    rintro taken direct flat ⟨inner, hDepth, hBranches, rfl⟩
    have hInner : (taken :: inner).length = depth + 1 := by rw [List.length_cons, hDepth]
    exact .ok () ⟨taken :: inner, hInner, congrArg (taken :: ·) hBranches, rfl⟩
  cases executing with
  | true =>
    rcases hOp with rfl | rfl
    · exact (inherited_framed.pop.mirrors h).bind fun top _ _ hPopped => hBranch _ hPopped
    · exact (inherited_framed.pop.mirrors h).bind fun top _ _ hPopped => hBranch _ hPopped
  | false =>
    rw [stepConditional_opens_skipped hOp, stepConditional_opens_skipped hOp]
    exact hBranch false h

/-- A conditional that was opened inside is turned in both. -/
theorem mirrors_turns {executing : Bool} (h : Inside outer extra (depth + 1) direct flat) :
    Mirrors env outer extra (depth + 1) (stepConditional .elseOp executing direct)
      (stepConditional .elseOp executing flat) := by
  obtain ⟨inner, hDepth, hBranches, rfl⟩ := h
  obtain ⟨taken, inner, rfl⟩ := List.exists_cons_of_length_eq_add_one hDepth
  have hFlat : (direct.reframe (taken :: inner ++ true :: outer)
      (direct.opCount + extra)).branches = taken :: (inner ++ true :: outer) := rfl
  rw [stepConditional_elseOp hBranches, stepConditional_elseOp hFlat]
  exact .ok () ⟨(!taken) :: inner, hDepth, rfl, rfl⟩

/-- A conditional that was opened inside is closed in both. -/
theorem mirrors_closes {executing : Bool} (h : Inside outer extra (depth + 1) direct flat) :
    Mirrors env outer extra depth (stepConditional .endIfOp executing direct)
      (stepConditional .endIfOp executing flat) := by
  obtain ⟨inner, hDepth, hBranches, rfl⟩ := h
  obtain ⟨taken, inner, rfl⟩ := List.exists_cons_of_length_eq_add_one hDepth
  have hFlat : (direct.reframe (taken :: inner ++ true :: outer)
      (direct.opCount + extra)).branches = taken :: (inner ++ true :: outer) := rfl
  rw [stepConditional_endIfOp hBranches, stepConditional_endIfOp hFlat]
  exact .ok () ⟨inner, Nat.succ.inj hDepth, rfl, rfl⟩

/-- A run of some chunks, and a run of the same chunks and others from a state inside: the second
goes on with the others where the first ends well, fails where the first fails, or exceeds the
limit. -/
inductive Embeds (env : Env) (outer : List Bool) (extra : Nat) (rest : List Chunk) :
    EStateM.Result ScriptFailure State Unit → EStateM.Result ScriptFailure State Unit → Prop
  /-- The chunks are run to their end. -/
  | ends {direct flat : State} (h : Inside outer extra 0 direct flat) :
      Embeds env outer extra rest (.ok () direct) (runChunks env rest flat)
  /-- The chunks fail. -/
  | fails {depth : Nat} {direct flat : State} (failure : ScriptFailure)
      (h : Inside outer extra depth direct flat) :
      Embeds env outer extra rest (.error failure direct) (.error failure flat)
  /-- The count exceeds the limit. -/
  | limit {result : EStateM.Result ScriptFailure State Unit} {flat : State} :
      Embeds env outer extra rest result (.error (.opLimitExceeded env.maxOps) flat)

/-- A run is embedded if its first chunk ends alike, does not end the script, and what follows is
embedded. -/
theorem Embeds.cons (hReturn : ¬ MeetsReturn env (chunk :: chunks) direct)
    (hChunk : Mirrors env outer extra depth (stepChunk env chunk direct) (stepChunk env chunk flat))
    (hRest : ∀ direct flat, Inside outer extra depth direct flat → ¬ MeetsReturn env chunks direct →
      Embeds env outer extra rest (runChunks env chunks direct)
        (runChunks env (chunks ++ rest) flat)) :
    Embeds env outer extra rest (runChunks env (chunk :: chunks) direct)
      (runChunks env (chunk :: chunks ++ rest) flat) := by
  generalize hDirect : stepChunk env chunk direct = directResult at hChunk
  generalize hFlat : stepChunk env chunk flat = flatResult at hChunk
  rw [List.cons_append, runChunks, runChunks]
  cases hChunk with
  | ok flow h =>
    cases flow with
    | next =>
      rw [bind_of_ok hDirect, bind_of_ok hFlat]
      exact hRest _ _ h fun hMeets => hReturn (hMeets.cons hDirect)
    -- Only an executed end of the script stops a run.
    | stop =>
      exact absurd ⟨chunk, chunks, direct, .start, (stepChunk_stop_iff.1 hDirect).1⟩ hReturn
  | error failure h =>
    rw [bind_of_error hDirect, bind_of_error hFlat]
    exact .fails failure h
  | limit =>
    rw [bind_of_error hFlat]
    exact .limit

/-- A run of chunks that nest is embedded in a run below a taken branch, if it does not meet the end
of the script. -/
theorem embeds_of_nests (h : Nests depth chunks) (hInside : Inside outer extra depth direct flat)
    (hReturn : ¬ MeetsReturn env chunks direct) :
    Embeds env outer extra rest (runChunks env chunks direct)
      (runChunks env (chunks ++ rest) flat) := by
  -- Each chunk leads to states that are inside at the depth at which the rest of the chunks nests.
  induction h generalizing direct flat with
  | nil => exact .ends hInside
  | plain hPlain _ ih =>
    exact .cons hReturn (mirrors_stepChunk_plain hPlain hInside) fun _ _ => ih
  | opens hChunk hOp _ ih =>
    exact .cons hReturn (mirrors_stepChunk_conditional hChunk hInside (mirrors_opens hOp))
      fun _ _ => ih
  | turns hChunk _ ih =>
    exact .cons hReturn (mirrors_stepChunk_conditional hChunk hInside mirrors_turns) fun _ _ => ih
  | closes hChunk _ ih =>
    exact .cons hReturn (mirrors_stepChunk_conditional hChunk hInside mirrors_closes) fun _ _ => ih

end Inside

/-! ## Whole conditionals -/

/-- The opcode that opens a conditional, which may be negated. -/
def opening (negated : Bool) : Opcode :=
  if negated then .notIfOp else .ifOp

/-- The chunks of a conditional with two branches. -/
def conditional (negated : Bool) (first second : List Chunk) : List Chunk :=
  .ofOpcode (opening negated) ::
    (first ++ .ofOpcode .elseOp :: (second ++ [.ofOpcode .endIfOp]))

/-- The branch that is taken, of two. -/
def select (taken : Bool) (first second : List Chunk) : List Chunk :=
  if taken then first else second

/-- The limit on opcodes is not what a run fails for. -/
def Unlimited (env : Env) (result : EStateM.Result ScriptFailure State Unit) : Prop :=
  ∀ final, result ≠ .error (.opLimitExceeded env.maxOps) final

/-- Where the limit is not hit, a run goes on after a conditional. -/
theorem runChunks_conditional_of_unlimited (h : chunk.conditional? = some op)
    (hStep : stepConditional op state.executing { state with opCount := state.opCount + 1 } =
      .ok () next) (hLimit : Unlimited env (runChunks env (chunk :: rest) state)) :
    runChunks env (chunk :: rest) state = runChunks env rest next := by
  have hRun := runChunks_conditional h hStep env rest
  split_ifs at hRun
  · exact absurd hRun (hLimit _)
  · exact hRun

/-- Where the limit is not hit, chunks that are passed over leave a larger count. -/
theorem PassesOver.eq_of_unlimited {outer : List Bool} (h : PassesOver env chunks rest outer state)
    (hLimit : Unlimited env (runChunks env (chunks ++ rest) state)) :
    runChunks env (chunks ++ rest) state =
      runChunks env rest (state.reframe outer (state.opCount + conditionals chunks)) := by
  rcases h with h | ⟨-, final, h⟩
  · exact h
  · exact absurd h (hLimit final)

/-- A conditional opens a branch that is taken if the item on top, which it takes off, says so. -/
theorem stepConditional_opening {negated : Bool} {top : Bytes} {below : Stack}
    (hStack : state.stack = top :: below) :
    stepConditional (opening negated) true state = .ok () { state with
      stack := below
      branches := (ScriptNumber.isTrue top != negated) :: state.branches } := by
  obtain ⟨stack, alt, branches, opCount⟩ := state
  obtain rfl := hStack
  cases negated with
  | true =>
    rw [Bool.bne_true]
    rfl
  | false =>
    rw [Bool.bne_false]
    rfl

/-- After a branch that was taken, the other one is passed over and the conditional is closed. -/
theorem runChunks_else_skipped {outer : List Bool} (hBranches : state.branches = true :: outer)
    (h : Nests 0 chunks)
    (hLimit : Unlimited env
      (runChunks env (.ofOpcode .elseOp :: (chunks ++ [.ofOpcode .endIfOp])) state)) :
    runChunks env (.ofOpcode .elseOp :: (chunks ++ [.ofOpcode .endIfOp])) state =
      .ok () (state.reframe outer (state.opCount + 2 + conditionals chunks)) := by
  have hElse := runChunks_conditional_of_unlimited (Chunk.conditional?_ofOpcode rfl)
    (stepConditional_elseOp hBranches) hLimit
  rw [hElse] at hLimit ⊢
  have hOuter : (false :: outer).all id = false := rfl
  have hPassed := (passesOver_of_nests hOuter h List.length_nil rfl).eq_of_unlimited hLimit
  rw [hPassed] at hLimit ⊢
  have hEnd := runChunks_conditional_of_unlimited (Chunk.conditional?_ofOpcode rfl)
    (stepConditional_endIfOp rfl) hLimit
  rw [hEnd]
  change EStateM.Result.ok ()
    (state.reframe outer (state.opCount + 1 + conditionals chunks + 1)) = _
  rw [Nat.add_right_comm _ _ 1]

/-- A branch that is not taken is passed over, up to the other one. -/
theorem runChunks_skipped_else {outer : List Bool} (hBranches : state.branches = false :: outer)
    (h : Nests 0 chunks)
    (hLimit : Unlimited env (runChunks env (chunks ++ .ofOpcode .elseOp :: rest) state)) :
    runChunks env (chunks ++ .ofOpcode .elseOp :: rest) state =
      runChunks env rest
        (state.reframe (true :: outer) (state.opCount + 1 + conditionals chunks)) := by
  have hOuter : (false :: outer).all id = false := rfl
  have hPassed := (passesOver_of_nests hOuter h List.length_nil hBranches).eq_of_unlimited hLimit
  rw [hPassed] at hLimit ⊢
  have hElse := runChunks_conditional_of_unlimited (Chunk.conditional?_ofOpcode rfl)
    (stepConditional_elseOp rfl) hLimit
  rw [hElse, Nat.add_right_comm _ 1]
  rfl

/-- A run of a branch and a run of its conditional: the second ends well where the first does, with
the same stacks, every conditional closed that the block opened, and a count that is larger by the
three opcodes around the branches and the conditionals of the other branch. It fails where the first
fails, with the same stacks, and its own conditional among those that are open. -/
structure RunsAs (env : Env) (outer : List Bool) (passed : List Chunk)
    (branch block : EStateM.Result ScriptFailure State Unit) : Prop where
  /-- The branch is run to its end. -/
  ok : ∀ after, branch = .ok () after → after.branches = outer ∧
    block = .ok () { after with opCount := after.opCount + 3 + conditionals passed }
  /-- The branch fails. -/
  error : ∀ failure after, branch = .error failure after → ∃ inner opCount,
    after.branches = inner ++ outer ∧
      block = .error failure { after with branches := inner ++ true :: outer, opCount }

/-- A run that is embedded in one that is not limited, and that closes its conditional with a known
count, is one that the other runs as. -/
theorem RunsAs.of_embeds {outer : List Bool} {extra closing : Nat} {passed : List Chunk}
    {branch block : EStateM.Result ScriptFailure State Unit}
    (h : Embeds env outer extra rest branch block) (hLimit : Unlimited env block)
    (hRest : ∀ flat, flat.branches = true :: outer → Unlimited env (runChunks env rest flat) →
      runChunks env rest flat = .ok () (flat.reframe outer (flat.opCount + closing)))
    (hCount : extra + closing = 3 + conditionals passed) :
    RunsAs env outer passed branch block := by
  cases h with
  | ends h =>
    -- The branch has closed what it opened, so the block's own conditional is the innermost.
    obtain ⟨inner, hDepth, hBranches, rfl⟩ := h
    obtain rfl := List.length_eq_zero_iff.1 hDepth
    rw [hRest _ rfl hLimit]
    refine ⟨fun after hAfter => ?_, fun _ _ hFails => absurd hFails nofun⟩
    obtain ⟨-, rfl⟩ := EStateM.Result.ok.inj hAfter
    refine ⟨hBranches, ?_⟩
    simp only [State.reframe, hBranches, Nat.add_assoc, hCount, List.nil_append]
  | fails failure h =>
    obtain ⟨inner, -, hBranches, rfl⟩ := h
    refine ⟨fun _ hAfter => absurd hAfter nofun, fun found after hFails => ?_⟩
    obtain ⟨rfl, rfl⟩ := EStateM.Result.error.inj hFails
    exact ⟨inner, _, hBranches, rfl⟩
  | limit => exact absurd rfl (hLimit _)

section

variable {negated taken : Bool} {first second : List Chunk} {top : Bytes} {below : Stack}

/-- The first branch follows where a conditional is opened. -/
theorem runChunks_opening (hExecuting : state.executing = true)
    (hStack : state.stack = top :: below) (hTaken : (ScriptNumber.isTrue top != negated) = taken)
    (hLimit : Unlimited env (runChunks env (conditional negated first second) state)) :
    runChunks env (conditional negated first second) state =
      runChunks env (first ++ .ofOpcode .elseOp :: (second ++ [.ofOpcode .endIfOp]))
        { state with
          stack := below, branches := taken :: state.branches, opCount := state.opCount + 1 } := by
  have hOpening : (opening negated).isConditional = true := by
    cases negated <;> rfl
  refine runChunks_conditional_of_unlimited (Chunk.conditional?_ofOpcode hOpening) ?_ hLimit
  have hCounted : ({ state with opCount := state.opCount + 1 } : State).stack = top :: below :=
    hStack
  rw [hExecuting, stepConditional_opening hCounted, hTaken]

/-- A conditional whose first branch is taken runs as that branch. -/
theorem runsAs_first (hFirst : Nests 0 first) (hSecond : Nests 0 second)
    (hExecuting : state.executing = true) (hStack : state.stack = top :: below)
    (hTaken : (ScriptNumber.isTrue top != negated) = true)
    (hReturn : ¬ MeetsReturn env first { state with stack := below })
    (hLimit : Unlimited env (runChunks env (conditional negated first second) state)) :
    RunsAs env state.branches second (runChunks env first { state with stack := below })
      (runChunks env (conditional negated first second) state) := by
  have hOpened := runChunks_opening hExecuting hStack hTaken hLimit
  rw [hOpened] at hLimit ⊢
  have hInside : Inside state.branches 1 0 { state with stack := below } { state with
      stack := below, branches := true :: state.branches, opCount := state.opCount + 1 } :=
    ⟨[], rfl, rfl, rfl⟩
  have hClosing : ∀ flat, flat.branches = true :: state.branches →
      Unlimited env (runChunks env (.ofOpcode .elseOp :: (second ++ [.ofOpcode .endIfOp])) flat) →
      runChunks env (.ofOpcode .elseOp :: (second ++ [.ofOpcode .endIfOp])) flat =
        .ok () (flat.reframe state.branches (flat.opCount + (2 + conditionals second))) := by
    intro flat hBranches hFlat
    rw [runChunks_else_skipped hBranches hSecond hFlat, Nat.add_assoc]
  exact .of_embeds (embeds_of_nests hFirst hInside hReturn) hLimit hClosing (by omega)

/-- A conditional whose second branch is taken runs as that branch. -/
theorem runsAs_second (hFirst : Nests 0 first) (hSecond : Nests 0 second)
    (hExecuting : state.executing = true) (hStack : state.stack = top :: below)
    (hTaken : (ScriptNumber.isTrue top != negated) = false)
    (hReturn : ¬ MeetsReturn env second { state with stack := below })
    (hLimit : Unlimited env (runChunks env (conditional negated first second) state)) :
    RunsAs env state.branches first (runChunks env second { state with stack := below })
      (runChunks env (conditional negated first second) state) := by
  have hOpened := runChunks_opening hExecuting hStack hTaken hLimit
  rw [hOpened] at hLimit ⊢
  -- The first branch is passed over before the second begins, so its count comes first.
  have hTurned := runChunks_skipped_else rfl hFirst hLimit
  rw [hTurned] at hLimit ⊢
  have hInside : Inside state.branches (1 + 1 + conditionals first) 0 { state with stack := below }
      { state with
        stack := below
        branches := true :: state.branches
        opCount := state.opCount + 1 + 1 + conditionals first } := by
    refine ⟨[], rfl, rfl, ?_⟩
    simp only [State.reframe, Nat.add_assoc, List.nil_append]
  have hClosing : ∀ flat, flat.branches = true :: state.branches →
      Unlimited env (runChunks env [.ofOpcode .endIfOp] flat) →
      runChunks env [.ofOpcode .endIfOp] flat =
        .ok () (flat.reframe state.branches (flat.opCount + 1)) := by
    intro flat hBranches hFlat
    exact runChunks_conditional_of_unlimited (Chunk.conditional?_ofOpcode rfl)
      (stepConditional_endIfOp hBranches) hFlat
  exact .of_embeds (embeds_of_nests hSecond hInside hReturn) hLimit hClosing (by omega)

/-- Flat conditionals are structured ones. Where the limit on opcodes is not hit and no end of the
script is met, a conditional that is executed runs as the branch that the item on top selects, after
that item is taken off: with the same failure, if any, the same stacks and the same open
conditionals, and on success with a count that is larger by three and by the conditionals of the
other branch. Code that is skipped changes nothing but the count, and does not fail. -/
theorem conditional_runsAs_select (env : Env) (negated : Bool) (first second : List Chunk)
    (state : State) (top : Bytes) (below : Stack) (hFirst : Nests 0 first)
    (hSecond : Nests 0 second) (hExecuting : state.executing = true)
    (hStack : state.stack = top :: below)
    (hReturn : ¬ MeetsReturn env (select (ScriptNumber.isTrue top != negated) first second)
      { state with stack := below })
    (hLimit : Unlimited env (runChunks env (conditional negated first second) state)) :
    RunsAs env state.branches (select (ScriptNumber.isTrue top == negated) first second)
      (runChunks env (select (ScriptNumber.isTrue top != negated) first second)
        { state with stack := below })
      (runChunks env (conditional negated first second) state) ∧
    ∀ (skipped : List Chunk) (skipping : State), Nests 0 skipped → skipping.executing = false →
      skipping.opCount + conditionals skipped ≤ env.maxOps →
      runChunks env skipped skipping =
        .ok () { skipping with opCount := skipping.opCount + conditionals skipped } := by
  refine ⟨?_, fun skipped skipping hNests hSkipping hCount => ?_⟩
  · have hOther : (ScriptNumber.isTrue top == negated) = !(ScriptNumber.isTrue top != negated) := by
      rw [bne, Bool.not_not]
    rw [hOther]
    cases hTaken : ScriptNumber.isTrue top != negated with
    | true =>
      rw [hTaken] at hReturn
      exact runsAs_first hFirst hSecond hExecuting hStack hTaken hReturn hLimit
    | false =>
      rw [hTaken] at hReturn
      exact runsAs_second hFirst hSecond hExecuting hStack hTaken hReturn hLimit
  · have hPassed : PassesOver env skipped [] skipping.branches skipping :=
      passesOver_of_nests hSkipping hNests List.length_nil rfl
    rcases hPassed with hPassed | ⟨hOver, -⟩
    · rw [List.append_nil] at hPassed
      exact hPassed
    · omega

end

end UtxoChain.Machine

namespace UtxoChain.Sample

open Machine
open Script (Nests)

/-- A branch with an opcode that has no name, and a conditional around a push that is too large. -/
def wildBranch : List Chunk :=
  [⟨0xff, none⟩, .ofOpcode .ifOp, ⟨Opcode.pushData2.toByte, some (List.replicate 5000 7)⟩,
    .ofOpcode .elseOp, .ofOpcode .endIfOp]

/-- A branch that pushes one byte. -/
def plainBranch : List Chunk := [⟨1, some [11]⟩]

/-- On a false item the first branch is skipped, with its conditionals, and the second is run. -/
theorem runChunks_conditional_wildBranch :
    runChunks ⟨[], none, 6⟩ (conditional false wildBranch plainBranch) ⟨[[0]], [], [], 0⟩ =
      .ok () ⟨[[11]], [], [], 6⟩ := by
  have hWild : Nests 0 wildBranch :=
    .plain rfl (.opens rfl (.inl rfl) (.plain rfl (.turns rfl (.closes rfl .nil))))
  have hPlain : Nests 0 plainBranch := .plain rfl .nil
  have hLimit : Unlimited ⟨[], none, 6⟩
      (runChunks ⟨[], none, 6⟩ (conditional false wildBranch plainBranch) ⟨[[0]], [], [], 0⟩) :=
    fun _ => nofun
  have hBranch : runChunks ⟨[], none, 6⟩ plainBranch ⟨[], [], [], 0⟩ =
      .ok () ⟨[[11]], [], [], 0⟩ := rfl
  have hRuns := (conditional_runsAs_select ⟨[], none, 6⟩ false wildBranch plainBranch
    ⟨[[0]], [], [], 0⟩ [0] [] hWild hPlain rfl rfl (not_meetsReturn (by decide)) hLimit).1
  exact (hRuns.ok _ hBranch).2

end UtxoChain.Sample
