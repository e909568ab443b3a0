import UtxoChain.Script.Chunk

/-!
# Nested conditionals

What of a script steers its run: the conditionals among its chunks, and how they nest. A chunk with
a payload steers nothing, whatever its opcode, and neither does an opcode that has no name.
-/

namespace UtxoChain

namespace Chunk

/-- The conditional that a chunk is, if it is one. A payload is none, whatever its opcode. -/
def conditional? (chunk : Chunk) : Option Opcode :=
  match chunk.payload with
  | none => chunk.op?.filter Opcode.isConditional
  | some _ => none

/-- A chunk is a conditional if it has no payload and its opcode is one. -/
theorem conditional?_eq_some_iff {chunk : Chunk} {op : Opcode} :
    chunk.conditional? = some op ↔
      chunk.payload = none ∧ chunk.op? = some op ∧ op.isConditional = true := by
  unfold conditional?
  cases chunk.payload with
  | none => simp [Option.filter_eq_some_iff]
  | some data => simp

/-- A chunk is no conditional if it has a payload or another opcode. -/
theorem conditional?_eq_none_iff {chunk : Chunk} :
    chunk.conditional? = none ↔
      (chunk.payload = none → ∀ op, chunk.op? = some op → op.isConditional = false) := by
  unfold conditional?
  cases chunk.payload with
  | none => simp [Option.filter_eq_none_iff]
  | some data => simp

/-- An opcode that is a conditional makes a chunk that is one. -/
theorem conditional?_ofOpcode {op : Opcode} (h : op.isConditional = true) :
    (ofOpcode op).conditional? = some op :=
  conditional?_eq_some_iff.2 ⟨rfl, Opcode.ofByte?_toByte op, h⟩

end Chunk

namespace Script

/-- Some chunks close all conditionals that they open and the innermost `depth` that are open before
them, and none beyond. A conditional may be turned any number of times before it is closed. -/
inductive Nests : Nat → List Chunk → Prop
  /-- Nothing is open. -/
  | nil : Nests 0 []
  /-- A chunk that is no conditional. -/
  | plain {depth : Nat} {chunk : Chunk} {rest : List Chunk} (h : chunk.conditional? = none)
      (inner : Nests depth rest) : Nests depth (chunk :: rest)
  /-- A conditional is opened. -/
  | opens {depth : Nat} {chunk : Chunk} {op : Opcode} {rest : List Chunk}
      (h : chunk.conditional? = some op) (hOp : op = .ifOp ∨ op = .notIfOp)
      (inner : Nests (depth + 1) rest) : Nests depth (chunk :: rest)
  /-- The innermost conditional is turned to its other branch. -/
  | turns {depth : Nat} {chunk : Chunk} {rest : List Chunk}
      (h : chunk.conditional? = some .elseOp) (inner : Nests (depth + 1) rest) :
      Nests (depth + 1) (chunk :: rest)
  /-- The innermost conditional is closed. -/
  | closes {depth : Nat} {chunk : Chunk} {rest : List Chunk}
      (h : chunk.conditional? = some .endIfOp) (inner : Nests depth rest) :
      Nests (depth + 1) (chunk :: rest)

/-- The number of conditionals among some chunks. -/
def conditionals (chunks : List Chunk) : Nat :=
  chunks.countP fun chunk => chunk.conditional?.isSome

/-- A chunk that is no conditional is not counted as one. -/
theorem conditionals_cons_plain {chunk : Chunk} (h : chunk.conditional? = none)
    (rest : List Chunk) : conditionals (chunk :: rest) = conditionals rest :=
  List.countP_cons_of_neg (by rw [h]; exact Bool.false_ne_true)

/-- A conditional is counted. -/
theorem conditionals_cons {chunk : Chunk} {op : Opcode} (h : chunk.conditional? = some op)
    (rest : List Chunk) : conditionals (chunk :: rest) = conditionals rest + 1 :=
  List.countP_cons_of_pos (by rw [h]; rfl)

end Script

end UtxoChain
