import UtxoChain.Proofs.Machine.Parts

/-!
# Opcodes see only the stacks

An opcode that steers nothing neither reads nor changes the open conditionals and the count of
opcodes. So with others in their place it ends in the same way, and the others are still there. This
holds of the steps that opcodes are put together of, and is inherited from them (`inherited_framed`).
-/

namespace UtxoChain.Machine

/-- The state with other open conditionals and another count. -/
def State.reframe (branches : List Bool) (opCount : Nat) (state : State) : State :=
  { state with branches, opCount }

section

variable {α β : Type}

/-- The result of a step with its state changed. -/
def mapState (f : State → State) :
    EStateM.Result ScriptFailure State α → EStateM.Result ScriptFailure State α
  | .ok value state => .ok value (f state)
  | .error failure state => .error failure (f state)

/-- A step sees only the stacks: whatever the open conditionals and the count, it ends in the same
way and keeps them. -/
def Framed (step : Step α) : Prop :=
  ∀ (branches : List Bool) (opCount : Nat) (state : State),
    step (state.reframe branches opCount) = mapState (State.reframe branches opCount) (step state)

/-- A step that sees only the stacks keeps the conditionals and the count that were there. -/
theorem Framed.mapState_eq {step : Step α} (h : Framed step) (state : State) :
    mapState (State.reframe state.branches state.opCount) (step state) = step state :=
  (h state.branches state.opCount state).symm

/-- A step sees only the stacks if all its parts do. -/
theorem Framed.bind {first : Step α} {next : α → Step β} (hFirst : Framed first)
    (hNext : ∀ value, Framed (next value)) : Framed (first >>= next) := by
  intro branches opCount state
  change EStateM.bind first next _ = mapState _ (EStateM.bind first next state)
  unfold EStateM.bind
  rw [hFirst branches opCount state]
  cases first state with
  | ok value middle => exact hNext value branches opCount middle
  | error failure middle => rfl

/-- Moving an item back from the alternative stack sees only the stacks. -/
theorem framed_fromAltStack (env : Env) : Framed (step env .fromAltStack) := by
  intro branches opCount state
  obtain ⟨stack, alt, _, _⟩ := state
  cases alt with
  | nil => rfl
  | cons item alt => rfl

/-- Opcodes see only the stacks if their parts do, and all of these do. -/
theorem inherited_framed : Inherited Framed where
  pure _ := fun _ _ _ => rfl
  throw _ := fun _ _ _ => rfl
  bind := Framed.bind
  getStack := fun _ _ _ => rfl
  setStack _ := fun _ _ _ => rfl
  placeAlt _ := fun _ _ _ => rfl
  fromAltStack := framed_fromAltStack

/-- The check of the depth sees only the stacks. -/
theorem framed_checkDepth : Framed checkDepth := by
  intro branches opCount state
  change (if maxStackDepth < state.stack.length + state.alt.length then _ else _ : Step Unit) _ =
    mapState _ ((if maxStackDepth < state.stack.length + state.alt.length then _ else _ : Step Unit)
      state)
  split_ifs <;> rfl

end

end UtxoChain.Machine
