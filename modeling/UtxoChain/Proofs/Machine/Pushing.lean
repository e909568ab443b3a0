import UtxoChain.Proofs.Machine.Run
import UtxoChain.Proofs.Machine.Sight
import UtxoChain.Proofs.Script.Admissible

/-!
# Scripts that only push

A script may be known to only push by a look at its chunks (`Script.isPushOnly`). Such a script puts one
item on the stack for each chunk (`Chunk.item?`) and does nothing else: it keeps the alternative stack
and the open conditionals, and fails only where a limit of the machine is exceeded (`Harmless`). So
whether it succeeds is told by the limits alone, and the items that it leaves by its chunks.
-/

namespace UtxoChain

open Stateful

/-! ## The items of chunks -/

/-- The number that an opcode pushes. -/
def Opcode.constant? : Opcode → Option Int
  | .op0 => some 0
  | .negate1 => some (-1)
  | .op1 => some 1
  | .op2 => some 2
  | .op3 => some 3
  | .op4 => some 4
  | .op5 => some 5
  | .op6 => some 6
  | .op7 => some 7
  | .op8 => some 8
  | .op9 => some 9
  | .op10 => some 10
  | .op11 => some 11
  | .op12 => some 12
  | .op13 => some 13
  | .op14 => some 14
  | .op15 => some 15
  | .op16 => some 16
  | _ => none

/-- The item that a chunk pushes: its payload, or the shortest form of the number of its opcode. -/
def Chunk.item? (chunk : Chunk) : Option Bytes :=
  match chunk.payload with
  | some data => some data
  | none => (chunk.op?.bind Opcode.constant?).map ScriptNumber.encode

/-- The opcodes that push a number are told apart in the same way by a script that looks at its
chunks. -/
theorem Opcode.isSome_constant? (op : Opcode) :
    op.constant?.isSome = (op == .op0 || op == .negate1 || op.smallInt?.isSome) := by
  cases op <;> rfl

/-- A chunk has an item exactly if it pushes a payload or a number. -/
theorem Chunk.isSome_item? (chunk : Chunk) :
    chunk.item?.isSome = (chunk.isPush || Script.pushesNumber chunk) := by
  unfold item? isPush Script.pushesNumber
  cases chunk.payload with
  | some data => rfl
  | none =>
    cases chunk.op? with
    | none => rfl
    | some op =>
      dsimp only
      rw [← Opcode.isSome_constant?, Option.bind_some, Option.isSome_map]
      rfl

/-- Each chunk of a script that only pushes has an item. -/
theorem Script.exists_items {script : Script} (h : script.isPushOnly = true) :
    ∃ items : List Bytes, script.chunks.map Chunk.item? = items.map some := by
  have hItem : ∀ chunk ∈ script.chunks, ∃ item, chunk.item? = some item := by
    intro chunk hChunk
    have hPushes := List.all_eq_true.1 h chunk hChunk
    rwa [← Chunk.isSome_item?, Option.isSome_iff_exists] at hPushes
  clear h
  generalize script.chunks = chunks at hItem
  induction chunks with
  | nil => exact ⟨[], rfl⟩
  | cons chunk chunks ih =>
    obtain ⟨⟨item, hFirst⟩, hOthers⟩ := List.forall_mem_cons.1 hItem
    obtain ⟨items, hItems⟩ := ih hOthers
    exact ⟨item :: items, by rw [List.map_cons, List.map_cons, hFirst, hItems]⟩

/-- The form of a number that an opcode pushes is a single byte. -/
theorem Opcode.length_encode_of_constant? {op : Opcode} {number : Int}
    (h : op.constant? = some number) : (ScriptNumber.encode number).length = 1 := by
  cases op <;> cases h <;> rfl

/-- A chunk without payload that has an item is the chunk of an opcode that pushes a number. -/
theorem Chunk.exists_of_item? {chunk : Chunk} {item : Bytes} (h : chunk.item? = some item)
    (hPayload : chunk.payload = none) :
    ∃ op number, chunk = .ofOpcode op ∧ op.constant? = some number ∧
      ScriptNumber.encode number = item := by
  unfold item? at h
  rw [hPayload] at h
  obtain ⟨number, hNumber, hItem⟩ := Option.map_eq_some_iff.1 h
  obtain ⟨op, hOp, hConstant⟩ := Option.bind_eq_some_iff.1 hNumber
  refine ⟨op, number, ?_, hConstant, hItem⟩
  rw [ofOpcode, Opcode.toByte_of_ofByte? hOp, ← hPayload]

namespace Machine

/-- An opcode that pushes a number does just that. -/
theorem step_of_constant? {env : Env} {op : Opcode} {number : Int} (h : op.constant? = some number) :
    step env op = pushNumber number := by
  cases op <;> cases h <;> rfl

/-- An opcode that pushes a number neither steers nor ends a script. -/
theorem plain_of_constant? {op : Opcode} {number : Int} (h : op.constant? = some number) :
    op.isConditional = false ∧ op ≠ .returnOp := by
  constructor
  · cases op <;> first | rfl | cases h
  · rintro rfl
    cases h

/-! ## What pushing leaves alone -/

/-- A limit of the machine is exceeded. -/
inductive ExceedsLimit (maxOps : Nat) : ScriptFailure → Prop
  /-- An item is too large. -/
  | elementTooLarge {size : Nat} (h : 4096 < size) : ExceedsLimit maxOps (.elementTooLarge size)
  /-- There are too many items. -/
  | stackOverflow : ExceedsLimit maxOps (.stackOverflow 1000)
  /-- There are too many opcodes. -/
  | opLimitExceeded : ExceedsLimit maxOps (.opLimitExceeded maxOps)

/-- A step keeps the alternative stack and the open conditionals, and fails only where a limit is
exceeded. -/
abbrev Harmless (maxOps : Nat) {α : Type} (step : Step α) : Prop :=
  Spares (fun state => (state.alt, state.branches)) (ExceedsLimit maxOps) step

section

variable {maxOps : Nat} {env : Env}

/-- Pushing an item is harmless. -/
theorem harmless_push (item : Bytes) : Harmless maxOps (push item) :=
  .ite (fun hLarge => .throw (.elementTooLarge hLarge)) fun _ => ⟨rfl, nofun⟩

/-- Measuring the stacks is harmless. -/
theorem harmless_checkDepth : Harmless maxOps checkDepth :=
  Spares.get.bind fun _ => .ite (fun _ => .throw .stackOverflow) (.pure ())

/-- Counting an opcode is harmless. -/
theorem harmless_countOp : Harmless env.maxOps (countOp env) := by
  intro state
  rw [countOp_eq]
  split_ifs
  · exact ⟨rfl, fun _ _ h => (EStateM.Result.error.inj h).1 ▸ .opLimitExceeded⟩
  · exact ⟨rfl, nofun⟩

/-- A chunk that has an item is harmless. -/
theorem harmless_stepChunk {chunk : Chunk} {item : Bytes} (h : chunk.item? = some item) :
    Harmless env.maxOps (stepChunk env chunk) := by
  unfold stepChunk
  refine Spares.get.bind fun state => ?_
  cases hPayload : chunk.payload with
  | some data =>
    refine .ite (fun _ => ?_) (.pure _)
    exact (harmless_push data).bind fun _ => harmless_checkDepth.bind fun _ => Spares.pure _
  | none =>
    obtain ⟨op, number, rfl, hConstant, -⟩ := Chunk.exists_of_item? h hPayload
    obtain ⟨hPlain, hReturn⟩ := plain_of_constant? hConstant
    simp only [stepOpcode, Chunk.ofOpcode, Opcode.ofByte?_toByte, hPlain, hReturn,
      Bool.false_eq_true, if_false, step_of_constant? hConstant]
    refine .ite (fun _ => ?_) (.pure _)
    exact harmless_countOp.bind fun _ => (harmless_push _).bind fun _ =>
      harmless_checkDepth.bind fun _ => Spares.pure _

/-- Chunks that have items are harmless. -/
theorem harmless_runChunks {chunks : List Chunk} {items : List Bytes}
    (h : chunks.map Chunk.item? = items.map some) : Harmless env.maxOps (runChunks env chunks) := by
  induction chunks generalizing items with
  | nil => exact Spares.pure ()
  | cons chunk chunks ih =>
    cases items with
    | nil => exact absurd h nofun
    | cons item items =>
      obtain ⟨hFirst, hOthers⟩ := List.cons.inj h
      refine (harmless_stepChunk hFirst).bind fun flow => ?_
      cases flow with
      | next => exact ih hOthers
      | stop => exact Spares.pure ()

end

/-! ## What is pushed -/

variable {env : Env}

/-- What executing a chunk counts: nothing for a payload. -/
def cost (chunk : Chunk) : Nat :=
  if chunk.payload.isNone then 1 else 0

/-- A chunk that has an item puts it on, if it is small enough, there is room for it, and an opcode may
be counted. -/
theorem stepChunk_item_ok_iff {chunk : Chunk} {item : Bytes} (h : chunk.item? = some item)
    {state after : State} (hExecuting : state.executing = true) (hCount : state.opCount ≤ env.maxOps)
    {flow : Flow} :
    stepChunk env chunk state = .ok flow after ↔
      flow = .next ∧ item.length ≤ maxElementSize ∧
        state.stack.length + 1 + state.alt.length ≤ maxStackDepth ∧
        state.opCount + cost chunk ≤ env.maxOps ∧
        after = { state with
          stack := item :: state.stack
          opCount := state.opCount + cost chunk } := by
  unfold cost
  cases hPayload : chunk.payload with
  | some data =>
    obtain rfl : data = item := by
      unfold Chunk.item? at h
      rw [hPayload] at h
      exact Option.some.inj h
    rw [stepChunk_push_ok_iff hPayload hExecuting]
    simp [hCount]
  | none =>
    obtain ⟨op, number, rfl, hConstant, rfl⟩ := Chunk.exists_of_item? h hPayload
    obtain ⟨hPlain, hReturn⟩ := plain_of_constant? hConstant
    rw [stepChunk_ofOpcode_ok_iff hPlain hReturn hExecuting, step_of_constant? hConstant,
      pushNumber_ok_iff]
    constructor
    · rintro ⟨hFlow, hLess, ⟨hSize, rfl⟩, hDepth⟩
      exact ⟨hFlow, hSize, hDepth, hLess, rfl⟩
    · rintro ⟨hFlow, hSize, hDepth, hLess, rfl⟩
      exact ⟨hFlow, hLess, ⟨hSize, rfl⟩, hDepth⟩

/-- Chunks that have items put them on, the last on top, if each is small enough, there is room for all
of them and the opcodes among the chunks may be counted. -/
theorem runChunks_items_ok_iff {chunks : List Chunk} {items : List Bytes}
    (h : chunks.map Chunk.item? = items.map some) {state after : State}
    (hExecuting : state.executing = true)
    (hDepth : state.stack.length + state.alt.length ≤ maxStackDepth)
    (hCount : state.opCount ≤ env.maxOps) :
    runChunks env chunks state = .ok () after ↔
      (∀ item ∈ items, item.length ≤ maxElementSize) ∧
        state.stack.length + items.length + state.alt.length ≤ maxStackDepth ∧
        state.opCount + chunks.countP (·.payload.isNone) ≤ env.maxOps ∧
        after = { state with
          stack := items.reverse ++ state.stack
          opCount := state.opCount + chunks.countP (·.payload.isNone) } := by
  induction chunks generalizing items state with
  | nil =>
    obtain rfl : items = [] := List.map_eq_nil_iff.1 h.symm
    rw [runChunks_nil_ok_iff]
    simp [hDepth, hCount]
  | cons chunk chunks ih =>
    cases items with
    | nil => exact absurd h nofun
    | cons item items =>
      obtain ⟨hFirst, hOthers⟩ := List.cons.inj h
      have hStack : (item :: items).reverse ++ state.stack = items.reverse ++ item :: state.stack := by
        rw [List.reverse_cons, List.append_assoc]
        rfl
      have hTotal : state.opCount + (chunk :: chunks).countP (·.payload.isNone) =
          state.opCount + cost chunk + chunks.countP (·.payload.isNone) := by
        rw [List.countP_cons, Nat.add_assoc, Nat.add_comm (cost chunk)]
        rfl
      have hDeep : state.stack.length + (item :: items).length + state.alt.length =
          (item :: state.stack).length + items.length + state.alt.length := by
        rw [List.length_cons, List.length_cons]
        omega
      have hMiddle : ({ state with
          stack := item :: state.stack
          opCount := state.opCount + cost chunk } : State).executing = true := hExecuting
      rw [runChunks_cons_ok_iff fun _ _ hDone =>
        ((stepChunk_item_ok_iff hFirst hExecuting hCount).1 hDone).1]
      simp only [stepChunk_item_ok_iff hFirst hExecuting hCount, true_and]
      rw [hStack, hTotal, hDeep, List.forall_mem_cons]
      constructor
      · rintro ⟨_, ⟨hSize, hRoom, hLess, rfl⟩, hRun⟩
        obtain ⟨hSizes, hRest⟩ := (ih hOthers hMiddle hRoom hLess).1 hRun
        exact ⟨⟨hSize, hSizes⟩, hRest⟩
      · rintro ⟨⟨hSize, hSizes⟩, hRooms, hLesses, rfl⟩
        have hRoom : (item :: state.stack).length + state.alt.length ≤ maxStackDepth := by
          omega
        have hLess : state.opCount + cost chunk ≤ env.maxOps :=
          Nat.le_trans (Nat.le_add_right _ _) hLesses
        exact ⟨_, ⟨hSize, hRoom, hLess, rfl⟩,
          (ih hOthers hMiddle hRoom hLess).2 ⟨hSizes, hRooms, hLesses, rfl⟩⟩

/-! ## Whole scripts -/

variable {script : Script} {items : List Bytes} {context : Option Context} {maxOps : Nat}

/-- The items are small enough exactly if the payloads are. -/
theorem sizes_iff {chunks : List Chunk} (h : chunks.map Chunk.item? = items.map some) :
    (∀ item ∈ items, item.length ≤ maxElementSize) ↔
      ∀ chunk ∈ chunks, ∀ data, chunk.payload = some data → data.length ≤ maxElementSize := by
  have hMem : ∀ item, item ∈ items ↔ ∃ chunk ∈ chunks, chunk.item? = some item := by
    intro item
    rw [← List.mem_map, h, List.mem_map]
    simp
  constructor
  · intro hSizes chunk hChunk data hPayload
    refine hSizes data ((hMem data).2 ⟨chunk, hChunk, ?_⟩)
    rw [Chunk.item?, hPayload]
  · intro hSizes item hItem
    obtain ⟨chunk, hChunk, hFrom⟩ := (hMem item).1 hItem
    cases hPayload : chunk.payload with
    | some data =>
      rw [Chunk.item?, hPayload] at hFrom
      rw [← Option.some.inj hFrom]
      exact hSizes chunk hChunk data hPayload
    | none =>
      obtain ⟨op, number, -, hConstant, rfl⟩ := Chunk.exists_of_item? hFrom hPayload
      rw [Opcode.length_encode_of_constant? hConstant]
      decide

/-- A script whose chunks have items leaves these, if no limit is exceeded. -/
theorem execute_items_eq_ok_iff (h : script.chunks.map Chunk.item? = items.map some) {after : State} :
    execute script [] context maxOps = (.ok (), after) ↔
      (∀ item ∈ items, item.length ≤ maxElementSize) ∧ items.length ≤ maxStackDepth ∧
        script.chunks.countP (·.payload.isNone) ≤ maxOps ∧
        after = ⟨items.reverse, [], [], script.chunks.countP (·.payload.isNone)⟩ := by
  have hStart := @runChunks_items_ok_iff ⟨script.encode, context, maxOps⟩ _ _ h (.start []) after rfl
    (Nat.zero_le _) (Nat.zero_le _)
  simp only [State.start, List.length_nil, Nat.zero_add, Nat.add_zero, List.append_nil] at hStart
  rw [execute_eq_ok_iff]
  constructor
  · rintro ⟨hRun, -⟩
    exact hStart.1 hRun
  · intro hLimits
    refine ⟨hStart.2 hLimits, ?_⟩
    rw [hLimits.2.2.2]

/-- A script whose chunks have items is harmless as a whole. -/
theorem execute_harmless (h : script.chunks.map Chunk.item? = items.map some) (stack : Stack) :
    (execute script stack context maxOps).2.alt = [] ∧
      (execute script stack context maxOps).2.branches = [] ∧
      ∀ failure, (execute script stack context maxOps).1 = .error failure →
        ExceedsLimit maxOps failure := by
  have hHarmless : Harmless maxOps (runChunks ⟨script.encode, context, maxOps⟩ script.chunks) :=
    harmless_runChunks h
  obtain ⟨hKept, hFailure⟩ := hHarmless (.start stack)
  obtain ⟨hAlt, hBranches⟩ := Prod.ext_iff.1 hKept
  cases hRun : runChunks ⟨script.encode, context, maxOps⟩ script.chunks (.start stack) with
  | ok done after =>
    rw [hRun] at hAlt hBranches
    have hDone : execute script stack context maxOps = (.ok (), after) :=
      execute_eq_ok_iff.2 ⟨hRun, hBranches⟩
    rw [hDone]
    exact ⟨hAlt, hBranches, nofun⟩
  | error failure after =>
    rw [hRun] at hAlt hBranches
    have hFailed : execute script stack context maxOps = (.error failure, after) := by
      unfold execute runBalanced
      rw [bind_of_error hRun]
    rw [hFailed]
    refine ⟨hAlt, hBranches, fun found hFound => ?_⟩
    rw [← Except.error.inj hFound]
    exact hFailure failure after hRun

/-- The script that unlocks an output leaves its two items, the key on top. -/
theorem execute_pubKeyHashInput {signature key : Bytes}
    (h : Script.pubKeyHashInput signature key = .ok script)
    (hSignature : signature.length ≤ maxElementSize) (hKey : key.length ≤ maxElementSize) :
    execute script [] context maxOps = (.ok (), ⟨[key, signature], [], [], 0⟩) := by
  obtain ⟨first, second, rfl, hFirst, hSecond⟩ := Script.exists_of_pubKeyHashInput h
  have hItems : [first, second].map Chunk.item? = [signature, key].map some := by
    simp [Chunk.item?, hFirst, hSecond]
  have hUncounted : [first, second].countP (·.payload.isNone) = 0 := by
    simp [hFirst, hSecond]
  rw [execute_items_eq_ok_iff hItems, hUncounted]
  refine ⟨?_, show 2 ≤ maxStackDepth by decide, Nat.zero_le _, rfl⟩
  simp [hSignature, hKey]

/-- A script that only pushes is harmless, and pushes what it shows. It does the same whatever it runs
for, and leaves no alternative stack and no open conditional. It succeeds exactly if its payloads have
at most 4096 bytes, its chunks are at most 1000, and those without payload may be counted; then the
stack has, from the bottom, one item for each chunk. Otherwise one of these limits is named. So the
input that unlocks an output leaves the signature, and the key above it. -/
theorem execute_of_isPushOnly :
    (∀ script : Script, script.isPushOnly = true → ∀ (context : Option Context) (maxOps : Nat),
      (∀ other, execute script [] context maxOps = execute script [] other maxOps) ∧
      (execute script [] context maxOps).2.alt = [] ∧
      (execute script [] context maxOps).2.branches = [] ∧
      ((execute script [] context maxOps).1 = .ok () ↔
        (∀ chunk ∈ script.chunks, ∀ data, chunk.payload = some data → data.length ≤ 4096) ∧
          script.chunks.length ≤ 1000 ∧ script.chunks.countP (·.payload.isNone) ≤ maxOps) ∧
      ((execute script [] context maxOps).1 = .ok () →
        script.chunks.map Chunk.item? =
          (execute script [] context maxOps).2.stack.reverse.map some) ∧
      ∀ failure, (execute script [] context maxOps).1 = .error failure →
        ExceedsLimit maxOps failure) ∧
    (∀ signature key : Bytes, signature.length ≤ 4096 → key.length ≤ 4096 →
      ∃ script, Script.pubKeyHashInput signature key = .ok script ∧ script.isPushOnly = true ∧
        ∀ (context : Option Context) (maxOps : Nat), ∃ after,
          execute script [] context maxOps = (.ok (), after) ∧
            after.stack.reverse = [signature, key]) := by
  constructor
  · intro script hPushOnly context maxOps
    obtain ⟨items, hItems⟩ := Script.exists_items hPushOnly
    obtain ⟨hAlt, hBranches, hFailure⟩ := execute_harmless hItems []
    have hLength : items.length = script.chunks.length := by
      rw [← List.length_map (f := some), ← hItems, List.length_map]
    have hLeft : (execute script [] context maxOps).1 = .ok () →
        execute script [] context maxOps = (.ok (), (execute script [] context maxOps).2) :=
      fun hDone => Prod.ext hDone rfl
    refine ⟨fun other => execute_eq_of_isPushOnly hPushOnly [] context other maxOps, hAlt, hBranches,
      ⟨fun hDone => ?_, fun hLimits => ?_⟩, fun hDone => ?_, hFailure⟩
    · obtain ⟨hSizes, hFew, hCounted, -⟩ := (execute_items_eq_ok_iff hItems).1 (hLeft hDone)
      exact ⟨(sizes_iff hItems).1 hSizes, hLength.ge.trans hFew, hCounted⟩
    · obtain ⟨hSizes, hFew, hCounted⟩ := hLimits
      exact congrArg Prod.fst ((execute_items_eq_ok_iff hItems).2
        ⟨(sizes_iff hItems).2 hSizes, hLength.le.trans hFew, hCounted, rfl⟩)
    · obtain ⟨-, -, -, hAfter⟩ := (execute_items_eq_ok_iff hItems).1 (hLeft hDone)
      rw [hAfter, List.reverse_reverse]
      exact hItems
  · intro signature key hSignature hKey
    obtain ⟨first, hFirst⟩ := Chunk.exists_ofData (Nat.le_trans hSignature (by decide))
    obtain ⟨second, hSecond⟩ := Chunk.exists_ofData (Nat.le_trans hKey (by decide))
    have hScript : Script.pubKeyHashInput signature key = .ok ⟨[first, second]⟩ := by
      unfold Script.pubKeyHashInput
      rw [hFirst, hSecond]
      rfl
    exact ⟨_, hScript, Script.isPushOnly_of_pubKeyHashInput hScript, fun context maxOps =>
      ⟨_, execute_pubKeyHashInput hScript hSignature hKey, rfl⟩⟩

end Machine

namespace Sample

open Machine

/-- A payload after a direct push, and three numbers. -/
def fourPushes : Script :=
  ⟨[⟨0x02, some [0xab, 0xcd]⟩, .ofOpcode .op0, .ofOpcode .negate1, .ofOpcode .op16]⟩

/-- Four chunks leave four items. Where only two opcodes may be counted, the third of them is one too
many. -/
theorem execute_fourPushes :
    (execute fourPushes [] none 3).1 = .ok () ∧
      (execute fourPushes [] none 3).2.stack.reverse = [[0xab, 0xcd], [0x00], [0xff], [0x10]] ∧
      (execute fourPushes [] none 2).1 ≠ .ok () := by
  obtain ⟨hScripts, -⟩ := execute_of_isPushOnly
  obtain ⟨-, -, -, hOk, hStack, -⟩ := hScripts fourPushes (by decide) none 3
  obtain ⟨-, -, -, hFewer, -⟩ := hScripts fourPushes (by decide) none 2
  have hDone := hOk.2 ⟨by simp [fourPushes, Chunk.ofOpcode], by decide, by decide⟩
  refine ⟨hDone, ?_, fun h => absurd (hFewer.1 h).2.2 (by decide)⟩
  have hSame : List.map some [[0xab, 0xcd], [0x00], [0xff], [0x10]] =
      (execute fourPushes [] none 3).2.stack.reverse.map some := hStack hDone
  exact ((List.map_inj_right fun _ _ => Option.some.inj).1 hSame).symm

end Sample

end UtxoChain
