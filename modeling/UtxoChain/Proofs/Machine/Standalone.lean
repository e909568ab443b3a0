import UtxoChain.Proofs.Machine.MultiSignature
import UtxoChain.Proofs.Machine.Sight

/-!
# Runs without a transaction

A script may be run without a transaction. An opcode that asks for one then fails for want of it,
before it can do anything that depends on one. So a step without a transaction either fails in this way
or does what it does with one, whichever that is (`Foresees`), and runs inherit this: what a script
does without a transaction, unless it asks for one, it does in every transaction
(`execute_standalone_eq`).

A check of several signatures asks for the transaction at its first signature, so one of none does
not ask.
-/

namespace UtxoChain.Machine

open Stateful

variable {α β : Type}

/-- A step without a transaction foresees one with a transaction: it fails for want of one, or both do
the same. -/
def Foresees (alone beside : Step α) : Prop :=
  ∀ state, (∃ fault after, alone state = .error (.noTxContext fault) after) ∨
    alone state = beside state

/-- Every step foresees itself. -/
theorem foresees_refl (step : Step α) : Foresees step step :=
  fun _ => .inr rfl

/-- A step that fails for want of a transaction foresees every other. -/
theorem foresees_throw (fault : ContextFault) (beside : Step α) :
    Foresees (throw (.noTxContext fault)) beside :=
  fun state => .inl ⟨fault, state, rfl⟩

/-- Steps in a row foresee those that each of them foresees. -/
theorem Foresees.bind {alone beside : Step α} {next after : α → Step β}
    (hFirst : Foresees alone beside) (hNext : ∀ value, Foresees (next value) (after value)) :
    Foresees (alone >>= next) (beside >>= after) := by
  intro state
  rcases hFirst state with ⟨fault, stop, hFault⟩ | hSame
  · exact .inl ⟨fault, stop, bind_of_error hFault⟩
  · cases hResult : alone state with
    | ok value middle =>
      rw [bind_of_ok hResult, bind_of_ok (hSame.symm.trans hResult)]
      exact hNext value middle
    | error failure stop =>
      rw [bind_of_error hResult, bind_of_error (hSame.symm.trans hResult)]
      exact .inr rfl

/-- A step that is made unless a condition holds foresees where it does so alone. -/
theorem foresees_ite {condition : Prop} [Decidable condition] {alone beside other : Step α}
    (h : Foresees alone beside) :
    Foresees (if condition then other else alone) (if condition then other else beside) := by
  split_ifs
  · exact foresees_refl other
  · exact h

/-! ## The opcodes that look at the transaction -/

section

variable (scriptCode : Bytes) (context : Context) (maxOps : Nat)

/-- A signature check foresees. -/
theorem foresees_popSignatureCheck :
    Foresees (popSignatureCheck ⟨scriptCode, none, maxOps⟩)
      (popSignatureCheck ⟨scriptCode, some context, maxOps⟩) :=
  (foresees_refl pop).bind fun _ => (foresees_refl pop).bind fun _ => foresees_throw _ _

/-- Matching signatures with keys foresees: without a signature, and without a key, nothing is asked
for. -/
theorem foresees_matchSignatures (signatures keys : List Bytes) :
    Foresees (decided (matchSignatures (checkSignature ⟨scriptCode, none, maxOps⟩) signatures keys))
      (decided
        (matchSignatures (checkSignature ⟨scriptCode, some context, maxOps⟩) signatures keys)) := by
  cases signatures with
  | nil =>
    rw [matchSignatures, matchSignatures]
    exact foresees_refl _
  | cons signature signatures =>
    cases keys with
    | nil => exact foresees_refl _
    | cons key keys => exact foresees_throw _ _

/-- A check of several signatures foresees. -/
theorem foresees_popMultiSignatureCheck :
    Foresees (popMultiSignatureCheck ⟨scriptCode, none, maxOps⟩)
      (popMultiSignatureCheck ⟨scriptCode, some context, maxOps⟩) :=
  (foresees_refl popIndex).bind fun _ => foresees_ite
    ((foresees_refl (popMany _)).bind fun _ => (foresees_refl popIndex).bind fun _ => foresees_ite
      ((foresees_refl (popMany _)).bind fun _ => foresees_matchSignatures scriptCode context maxOps _ _))

/-- Every opcode foresees. -/
theorem foresees_step (op : Opcode) :
    Foresees (step ⟨scriptCode, none, maxOps⟩ op) (step ⟨scriptCode, some context, maxOps⟩ op) := by
  have hSingle := foresees_popSignatureCheck scriptCode context maxOps
  have hMulti := foresees_popMultiSignatureCheck scriptCode context maxOps
  cases op
  case checkSig => exact hSingle.bind fun _ => foresees_refl _
  case checkSigVerify => exact hSingle.bind fun _ => foresees_refl _
  case checkMultiSig => exact hMulti.bind fun _ => foresees_refl _
  case checkMultiSigVerify => exact hMulti.bind fun _ => foresees_refl _
  case checkLockAbsVerify => exact foresees_throw _ _
  case checkLockRelVerify => exact foresees_throw _ _
  all_goals exact foresees_refl _

/-- Runs inherit foresight from their opcodes. -/
theorem paired_foresees :
    Paired ⟨scriptCode, none, maxOps⟩ ⟨scriptCode, some context, maxOps⟩ Foresees where
  same _ := foresees_refl _
  countOp := foresees_refl _
  bind := Foresees.bind

end

/-! ## Whole scripts -/

/-- What a script does without a transaction, it does in every transaction, whatever the input, its
amount and the scheme of the signatures, unless it fails for want of one: it ends with the same result
in the same state, and has the same verdict. -/
theorem execute_standalone_eq (script : Script) (stack : Stack) (maxOps : Nat)
    (h : ∀ fault, (execute script stack none maxOps).1 ≠ .error (.noTxContext fault))
    (context : Context) :
    execute script stack (some context) maxOps = execute script stack none maxOps ∧
      evaluate script stack (some context) maxOps = evaluate script stack none maxOps := by
  have hRun : Foresees (runBalanced ⟨script.encode, none, maxOps⟩ script.chunks)
      (runBalanced ⟨script.encode, some context, maxOps⟩ script.chunks) :=
    (paired_foresees script.encode context maxOps).runBalanced fun _ _ _ op _ =>
      foresees_step script.encode context maxOps op
  have hSame : execute script stack (some context) maxOps = execute script stack none maxOps := by
    unfold execute at h ⊢
    rcases hRun (State.start stack) with ⟨fault, after, hFault⟩ | hSame
    · rw [hFault] at h
      exact absurd rfl (h fault)
    · rw [hSame]
  exact ⟨hSame, evaluate_congr hSame⟩

end UtxoChain.Machine

namespace UtxoChain.Sample

open Machine

/-- The script `0 IF CHECKSIG ENDIF 7 0 0 CHECKMULTISIG`: its single check stands in a branch that is
skipped, and its multiple check is one of no signatures and no keys. -/
def asksNothing : Script :=
  ⟨[.ofOpcode .op0, .ofOpcode .ifOp, .ofOpcode .checkSig, .ofOpcode .endIfOp, .ofOpcode .op7,
    .ofOpcode .op0, .ofOpcode .op0, .ofOpcode .checkMultiSig]⟩

/-- The script leaves a true item above the seven when it runs alone, and so in every transaction. -/
theorem execute_asksNothing :
    (∀ fault, (execute asksNothing [] none 7).1 ≠ .error (.noTxContext fault)) ∧
      execute asksNothing [] (some onlyInput) 7 = (.ok (), ⟨[[1], [7]], [], [], 7⟩) := by
  have hAlone : execute asksNothing [] none 7 = (.ok (), ⟨[[1], [7]], [], [], 7⟩) := by
    decide +kernel
  have hAsksNothing : ∀ fault, (execute asksNothing [] none 7).1 ≠ .error (.noTxContext fault) := by
    rw [hAlone]
    exact nofun
  have hSame := (execute_standalone_eq asksNothing [] 7 hAsksNothing onlyInput).1
  exact ⟨hAsksNothing, hSame.trans hAlone⟩

end UtxoChain.Sample
