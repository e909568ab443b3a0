import Mathlib.Algebra.Order.Ring.Nat
import Mathlib.Data.List.Induction
import UtxoChain.Rules.Block

/-!
# The outputs that a block creates

A block check looks spent outpoints up in one list of all outputs that the block creates. Here is what
that list holds: under an outpoint, the output of the last transaction that creates it. From it
follows what is visible to the transaction at a position (`Block.visibleAt_eq_some_iff`).

An outpoint names an output by an index of 32 bits. Where a transaction has fewer than `2^32` outputs,
each has an outpoint of its own (`Tx.output?`); in general the last output under an outpoint counts
(`Tx.lastOutput?`).
-/

namespace UtxoChain

/-- Where a key has one value only, looking it up finds that value. -/
theorem lookup_eq_some_iff_mem {α β : Type} [BEq α] [LawfulBEq α] {entries : List (α × β)} {key : α}
    (hUnique : ∀ one other, (key, one) ∈ entries → (key, other) ∈ entries → one = other)
    (value : β) : entries.lookup key = some value ↔ (key, value) ∈ entries := by
  constructor
  · intro h
    obtain ⟨before, after, rfl, -⟩ := List.lookup_eq_some_iff.1 h
    simp
  · intro hMem
    obtain ⟨found, hFound⟩ : ∃ found, entries.lookup key = some found := by
      rw [← Option.isSome_iff_exists, List.lookup_isSome_iff]
      exact ⟨_, hMem, beq_self_eq_true key⟩
    obtain ⟨before, after, hEntries, -⟩ := List.lookup_eq_some_iff.1 hFound
    have hFoundMem : (key, found) ∈ entries := by simp [hEntries]
    rw [hFound, hUnique value found hMem hFoundMem]

/-- Looking a key up after the values were changed gives the changed value. -/
theorem lookup_map_snd {α β γ : Type} [BEq α] (change : β → γ) (entries : List (α × β)) (key : α) :
    (entries.map fun entry => (entry.1, change entry.2)).lookup key =
      (entries.lookup key).map change := by
  induction entries with
  | nil => rfl
  | cons entry entries ih =>
    rw [List.map_cons, List.lookup_cons, List.lookup_cons, ih]
    cases key == entry.1 <;> rfl

/-- The output that a transaction creates under an outpoint. -/
def Tx.output? (tx : Tx) : OutputLookup := fun point =>
  if point.txId = tx.id then tx.outputs[point.index.toNat]? else none

/-- An output that a transaction creates stands under its id. -/
theorem Tx.txId_of_output? {tx : Tx} {point : OutPoint} {output : TxOut}
    (h : tx.output? point = some output) : point.txId = tx.id := by
  unfold output? at h
  by_contra hId
  simp [hId] at h

/-- What a transaction creates, listed, is what it creates under each outpoint. -/
theorem Tx.mem_created_iff {tx : Tx} (hCount : tx.outputs.length < 2 ^ 32) (point : OutPoint)
    (output : TxOut) : (point, output) ∈ tx.created ↔ tx.output? point = some output := by
  unfold created output?
  rw [List.mem_mapIdx]
  constructor
  · rintro ⟨index, hIndex, hEntry⟩
    obtain ⟨rfl, rfl⟩ := Prod.mk.inj hEntry
    have hWord : (UInt32.ofNat index).toNat = index :=
      UInt32.toNat_ofNat_of_lt' (Nat.lt_trans hIndex hCount)
    rw [if_pos rfl, hWord]
    exact List.getElem?_eq_getElem hIndex
  · intro h
    split_ifs at h with hId
    obtain ⟨hIndex, hOutput⟩ := List.getElem?_eq_some_iff.1 h
    refine ⟨point.index.toNat, hIndex, ?_⟩
    rw [hOutput, UInt32.ofNat_toNat, ← hId]

/-- The last output that a transaction creates under an outpoint. -/
def Tx.lastOutput? (tx : Tx) : OutputLookup := fun point =>
  tx.created.reverse.lookup point

/-- Where an index of 32 bits names every output, the last under an outpoint is the only one. -/
theorem Tx.lastOutput?_eq_output? {tx : Tx} (hCount : tx.outputs.length < 2 ^ 32) :
    tx.lastOutput? = tx.output? := by
  funext point
  unfold lastOutput?
  apply Option.ext
  intro output
  rw [lookup_eq_some_iff_mem, List.mem_reverse, Tx.mem_created_iff hCount]
  intro one other hOne hOther
  rw [List.mem_reverse, Tx.mem_created_iff hCount] at hOne hOther
  exact Option.some_inj.1 (hOne.symm.trans hOther)

/-- Every output that a transaction creates stands under its id. -/
theorem Tx.txId_of_lastOutput? {tx : Tx} {point : OutPoint} {output : TxOut}
    (h : tx.lastOutput? point = some output) : point.txId = tx.id := by
  obtain ⟨before, after, hEntries, -⟩ := List.lookup_eq_some_iff.1 h
  have hCreated : (point, output) ∈ tx.created := by
    rw [← List.mem_reverse, hEntries]
    simp
  unfold created at hCreated
  obtain ⟨index, hIndex, hEntry⟩ := List.mem_mapIdx.1 hCreated
  rw [← (Prod.mk.inj hEntry).1]

namespace Block

/-- The transaction at a position creates an output under an outpoint. -/
def Creates (txs : List Tx) (position : Nat) (point : OutPoint) (output : TxOut) : Prop :=
  ∃ tx, txs[position]? = some tx ∧ tx.output? point = some output

/-- The transactions before the last create what they create without it, and the last creates its own
outputs. -/
theorem creates_concat_iff (txs : List Tx) (tx : Tx) (position : Nat) (point : OutPoint)
    (output : TxOut) :
    Creates (txs ++ [tx]) position point output ↔
      Creates txs position point output ∨
        position = txs.length ∧ tx.output? point = some output := by
  unfold Creates
  rcases Nat.lt_trichotomy position txs.length with hLess | rfl | hMore
  · rw [List.getElem?_append_left hLess]
    simp [Nat.ne_of_lt hLess]
  · simp
  · rw [List.getElem?_eq_none (by simp; omega), List.getElem?_eq_none (Nat.le_of_lt hMore)]
    simp [Nat.ne_of_gt hMore]

/-- Only a transaction of the list creates something. -/
theorem Creates.lt_length {txs : List Tx} {position : Nat} {point : OutPoint} {output : TxOut}
    (h : Creates txs position point output) : position < txs.length := by
  obtain ⟨tx, hTx, -⟩ := h
  exact (List.getElem?_eq_some_iff.1 hTx).1

/-- The outputs that one more transaction creates are found before all others. -/
theorem lookup_createdOutputs_concat (txs : List Tx) (tx : Tx) (point : OutPoint) :
    (createdOutputs (txs ++ [tx])).lookup point =
      ((tx.lastOutput? point).map fun output => (txs.length, output)).or
        ((createdOutputs txs).lookup point) := by
  have hSplit : createdOutputs (txs ++ [tx]) =
      (tx.created.reverse.map fun entry => (entry.1, txs.length, entry.2)) ++
        createdOutputs txs := by
    simp [createdOutputs, List.zipIdx_append]
  rw [hSplit, List.lookup_append, lookup_map_snd fun output => (txs.length, output)]
  rfl

/-- Under an outpoint the list of all created outputs holds what the last creator created. -/
theorem lookup_createdOutputs_eq_some_iff {txs : List Tx}
    (hCount : ∀ tx ∈ txs, tx.outputs.length < 2 ^ 32) (point : OutPoint) (creator : Nat)
    (output : TxOut) :
    (createdOutputs txs).lookup point = some (creator, output) ↔
      Creates txs creator point output ∧
        ∀ later, creator < later → ∀ other, ¬ Creates txs later point other := by
  -- The list is built up from the last transaction, which is found first, so it is taken off first.
  induction txs using List.reverseRecOn generalizing creator output with
  | nil => simp [createdOutputs, Creates]
  | append_singleton txs tx ih =>
    have hTxs := ih fun tx hTx => hCount tx (by simp [hTx])
    rw [lookup_createdOutputs_concat, Tx.lastOutput?_eq_output? (hCount tx (by simp))]
    simp only [creates_concat_iff]
    cases hOutput : tx.output? point with
    | none => simpa using hTxs creator output
    | some created =>
      -- The last transaction creates the outpoint, so it hides all before it.
      simp only [Option.map_some, Option.some_or, Option.some_inj, Prod.mk.injEq]
      constructor
      · rintro ⟨rfl, rfl⟩
        refine ⟨.inr ⟨rfl, rfl⟩, ?_⟩
        rintro later hLater other (hCreates | ⟨rfl, -⟩)
        · exact Nat.lt_asymm hLater hCreates.lt_length
        · exact Nat.lt_irrefl _ hLater
      · rintro ⟨hCreates | ⟨rfl, rfl⟩, hLast⟩
        · exact absurd (.inr ⟨rfl, rfl⟩) (hLast txs.length hCreates.lt_length created)
        · exact ⟨rfl, rfl⟩

/-- The list of all created outputs holds nothing under an outpoint that no transaction creates. -/
theorem lookup_createdOutputs_eq_none_iff {txs : List Tx}
    (hCount : ∀ tx ∈ txs, tx.outputs.length < 2 ^ 32) (point : OutPoint) :
    (createdOutputs txs).lookup point = none ↔
      ∀ creator output, ¬ Creates txs creator point output := by
  induction txs using List.reverseRecOn with
  | nil => simp [createdOutputs, Creates]
  | append_singleton txs tx ih =>
    have hTxs := ih fun tx hTx => hCount tx (by simp [hTx])
    rw [lookup_createdOutputs_concat, Tx.lastOutput?_eq_output? (hCount tx (by simp)),
      Option.or_eq_none_iff, hTxs]
    simp only [creates_concat_iff, Option.map_eq_none_iff]
    constructor
    · rintro ⟨hNone, hEarlier⟩ creator output (hCreates | ⟨-, hOutput⟩)
      · exact hEarlier creator output hCreates
      · simp [hNone] at hOutput
    · intro h
      refine ⟨Option.eq_none_iff_forall_ne_some.2 fun output hOutput => ?_, ?_⟩
      · exact h txs.length output (.inr ⟨rfl, hOutput⟩)
      · exact fun creator output hCreates => h creator output (.inl hCreates)

/-- What the transaction at a position may spend under an outpoint: the output of the last
transaction of the block that creates it, if that one stands earlier, and otherwise, for an outpoint
that the block does not create, the known output. -/
inductive Available (lookup : OutputLookup) (txs : List Tx) (position : Nat) (point : OutPoint)
    (output : TxOut) : Prop
  /-- An earlier transaction creates the output, and no later one replaces it. -/
  | created (creator : Nat) (earlier : creator < position)
      (creates : Creates txs creator point output)
      (last : ∀ later, creator < later → ∀ other, ¬ Creates txs later point other)
  /-- The block does not create the outpoint, and the output is known. -/
  | known (uncreated : ∀ creator other, ¬ Creates txs creator point other)
      (known : lookup point = some output)

/-- What is visible to a transaction is what it may spend. -/
theorem visibleAt_eq_some_iff {txs : List Tx} (hCount : ∀ tx ∈ txs, tx.outputs.length < 2 ^ 32)
    (lookup : OutputLookup) (position : Nat) (point : OutPoint) (output : TxOut) :
    visibleAt (createdOutputs txs) lookup position point = some output ↔
      Available lookup txs position point output := by
  unfold visibleAt
  cases hFound : (createdOutputs txs).lookup point with
  | none =>
    have hUncreated := (lookup_createdOutputs_eq_none_iff hCount point).1 hFound
    constructor
    · exact fun hKnown => .known hUncreated hKnown
    · rintro (⟨creator, -, hCreates, -⟩ | ⟨-, hKnown⟩)
      · exact absurd hCreates (hUncreated creator output)
      · exact hKnown
  | some found =>
    obtain ⟨creator, created⟩ := found
    obtain ⟨hCreates, hLast⟩ := (lookup_createdOutputs_eq_some_iff hCount point _ _).1 hFound
    dsimp only
    constructor
    · intro h
      split_ifs at h with hEarlier
      exact .created creator hEarlier (Option.some_inj.1 h ▸ hCreates) hLast
    · rintro (⟨other, hEarlier, hOther, hOtherLast⟩ | ⟨hUncreated, -⟩)
      · -- There is one last creator only.
        have hSame := (lookup_createdOutputs_eq_some_iff hCount point _ _).2 ⟨hOther, hOtherLast⟩
        obtain ⟨rfl, rfl⟩ : creator = other ∧ created = output := by simpa [hFound] using hSame
        rw [if_pos hEarlier]
      · exact absurd hCreates (hUncreated creator created)

end Block

end UtxoChain
