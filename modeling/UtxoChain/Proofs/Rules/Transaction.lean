import Mathlib.Data.List.Forall2
import UtxoChain.Proofs.Verdict
import UtxoChain.Rules.Transaction

/-!
# What an accepted transaction has passed

For each check of a transaction, the condition under which it succeeds, with values summed over
unbounded numbers. `Tx.verify_congr` says that the verdict depends on the lookup only through the
outpoints that the transaction spends.
-/

namespace UtxoChain

/-- No outpoint is found to repeat exactly when they are distinct and none was seen before. -/
theorem firstRepeat_eq_none_iff (seen points : List OutPoint) :
    firstRepeat seen points = none ↔ points.Nodup ∧ ∀ point ∈ points, point ∉ seen := by
  induction points generalizing seen with
  | nil => simp [firstRepeat]
  | cons point rest ih =>
    by_cases h : point ∈ seen
    · simp [firstRepeat, h]
    · simp only [firstRepeat, h, if_false, ih, List.nodup_cons, List.mem_cons, forall_eq_or_imp,
        not_or, not_false_eq_true, true_and]
      constructor
      · rintro ⟨hNodup, hRest⟩
        exact ⟨⟨fun hmem => (hRest point hmem).1 rfl, hNodup⟩, fun p hp => (hRest p hp).2⟩
      · rintro ⟨⟨hNotin, hNodup⟩, hRest⟩
        exact ⟨hNodup, fun p hp => ⟨fun heq => hNotin (heq ▸ hp), hRest p hp⟩⟩

/-! ## Values -/

/-- A checked sum is the sum, which then fits a word. -/
theorem checkedAdd_eq_some_iff (a b c : UInt64) :
    checkedAdd a b = some c ↔ c.toNat = a.toNat + b.toNat := by
  have hc := c.toNat_lt
  unfold checkedAdd
  split_ifs with h
  · have hab : (a + b).toNat = a.toNat + b.toNat := by
      rw [UInt64.toNat_add, Nat.mod_eq_of_lt h]
    rw [Option.some_inj, ← UInt64.toNat_inj, hab, eq_comm]
  · have hSize : UInt64.size = 2 ^ 64 := rfl
    simp only [false_iff]
    omega

/-- A sum that is at most a word is one. -/
theorem exists_checkedAdd_of_le (a b total : UInt64) (h : a.toNat + b.toNat ≤ total.toNat) :
    ∃ sum, checkedAdd a b = some sum ∧ sum.toNat = a.toNat + b.toNat := by
  have hWord : a.toNat + b.toNat < UInt64.size := Nat.lt_of_le_of_lt h total.toNat_lt
  have hSum : (UInt64.ofNat (a.toNat + b.toNat)).toNat = a.toNat + b.toNat :=
    UInt64.toNat_ofNat_of_lt' hWord
  exact ⟨_, (checkedAdd_eq_some_iff _ _ _).2 hSum, hSum⟩

/-- The sum of the values of some outputs, without bound. -/
def TxOut.sum (outputs : List TxOut) : Nat :=
  (outputs.map fun output => output.value.toNat).sum

/-- No outputs are worth nothing. -/
@[simp]
theorem TxOut.sum_nil : TxOut.sum [] = 0 := rfl

/-- The value of one output more is added. -/
@[simp]
theorem TxOut.sum_cons (output : TxOut) (outputs : List TxOut) :
    TxOut.sum (output :: outputs) = output.value.toNat + TxOut.sum outputs := by
  simp [TxOut.sum]

/-- The values of two lists of outputs are added. -/
theorem TxOut.sum_append (one other : List TxOut) :
    TxOut.sum (one ++ other) = TxOut.sum one + TxOut.sum other := by
  rw [TxOut.sum, List.map_append, List.sum_append]
  rfl

/-- Adding output values one by one to a word succeeds exactly with the sum as a word. -/
theorem TxOut.foldlM_checkedAdd_eq_some_iff (outputs : List TxOut) (start total : UInt64) :
    outputs.foldlM (fun sum output => checkedAdd sum output.value) start = some total ↔
      total.toNat = start.toNat + TxOut.sum outputs := by
  induction outputs generalizing start with
  | nil =>
    simp only [List.foldlM_nil, Option.pure_def, Option.some_inj, ← UInt64.toNat_inj, sum_nil]
    omega
  | cons output outputs ih =>
    rw [List.foldlM_cons, Option.bind_eq_bind, Option.bind_eq_some_iff, sum_cons, ← Nat.add_assoc]
    constructor
    · rintro ⟨next, hNext, hRest⟩
      rw [← (checkedAdd_eq_some_iff _ _ _).1 hNext]
      exact (ih next).1 hRest
    · intro hTotal
      -- The partial sum is at most the total, so it is a word too.
      obtain ⟨next, hNext, hSum⟩ := exists_checkedAdd_of_le start output.value total (by omega)
      refine ⟨next, hNext, ?_⟩
      rw [ih, hSum, hTotal]

/-- Output values have a total exactly when their sum is a word. -/
theorem TxOut.total_eq_some_iff (outputs : List TxOut) (total : UInt64) :
    TxOut.total outputs = some total ↔ total.toNat = TxOut.sum outputs := by
  unfold TxOut.total
  rw [TxOut.foldlM_checkedAdd_eq_some_iff]
  simp

/-- The output values of a transaction have a total exactly when their sum is a word. -/
theorem Tx.totalOutput_eq_some_iff (tx : Tx) (total : UInt64) :
    tx.totalOutput = some total ↔ total.toNat = TxOut.sum tx.outputs :=
  TxOut.total_eq_some_iff tx.outputs total

/-! ## Spent outpoints -/

namespace Tx

/-- The spent outpoints are those of the inputs that are not the sentinel. -/
theorem mem_spentPoints {tx : Tx} {point : OutPoint} :
    point ∈ tx.spentPoints ↔ ∃ input ∈ tx.inputs, input.isMint = false ∧ input.point = point := by
  simp [spentPoints, and_assoc]

/-- Where no input is the sentinel, the spent outpoints are those of all inputs. -/
theorem spentPoints_eq_map {tx : Tx} (h : ∀ input ∈ tx.inputs, input.isMint = false) :
    tx.spentPoints = tx.inputs.map TxIn.point := by
  unfold spentPoints
  rw [List.filter_eq_self.2]
  intro input hInput
  rw [h input hInput, Bool.not_false]

/-- The first input of a transaction that mints is the sentinel, and no other is. -/
theorem isMint_iff_of_isMint {tx : Tx} (h : tx.isMint = true) {index : Nat} {input : TxIn}
    (hInput : tx.inputs[index]? = some input) : input.isMint = true ↔ index = 0 := by
  unfold isMint at h
  cases hInputs : tx.inputs with
  | nil => simp [hInputs] at h
  | cons first others =>
    simp only [hInputs, Bool.and_eq_true, List.all_eq_true, Bool.not_eq_eq_eq_not,
      Bool.not_true] at h
    rw [hInputs] at hInput
    cases index with
    | zero =>
      obtain rfl : first = input := by simpa using hInput
      simp [h.1]
    | succ index =>
      have hMem : input ∈ others := List.mem_of_getElem? (by simpa using hInput)
      simp [(h.2 input hMem).2]

/-! ## The checks -/

/-- The structure of a transaction: it has inputs and outputs, its output values have a total, its
outpoints are distinct, and the sentinel stands only where it mints. -/
structure WellStructured (tx : Tx) : Prop where
  /-- There are inputs. -/
  inputs_ne_nil : tx.inputs ≠ []
  /-- There are outputs. -/
  outputs_ne_nil : tx.outputs ≠ []
  /-- The output values together fit a word. -/
  sum_lt : TxOut.sum tx.outputs < 2 ^ 64
  /-- No outpoint is named twice. -/
  nodup : (tx.inputs.map TxIn.point).Nodup
  /-- The sentinel stands only where the transaction mints. -/
  sentinel : tx.isMint = false → ∀ input ∈ tx.inputs, input.isMint = false

/-- Output values have a total exactly when their sum is a word. -/
theorem isNone_totalOutput_eq_false_iff (tx : Tx) :
    tx.totalOutput.isNone = false ↔ TxOut.sum tx.outputs < 2 ^ 64 := by
  rw [Option.isNone_eq_false_iff, Option.isSome_iff_exists]
  constructor
  · rintro ⟨total, hTotal⟩
    rw [← (totalOutput_eq_some_iff tx total).1 hTotal]
    exact total.toNat_lt
  · intro h
    refine ⟨UInt64.ofNat (TxOut.sum tx.outputs), (totalOutput_eq_some_iff tx _).2 ?_⟩
    exact UInt64.toNat_ofNat_of_lt' h

/-- The check of the structure decides `WellStructured`. -/
theorem verifyStructure_eq_ok_iff (tx : Tx) : tx.verifyStructure = .ok () ↔ tx.WellStructured := by
  unfold verifyStructure
  constructor
  · intro h
    -- The checks are gone through in their order: each one that fails ends the verdict.
    by_cases hInputs : tx.inputs = []
    · simp [hInputs] at h
    by_cases hOutputs : tx.outputs = []
    · simp [hInputs, hOutputs] at h
    by_cases hTotal : tx.totalOutput.isNone = true
    · simp [hInputs, hOutputs, hTotal] at h
    rw [if_neg (by simpa using hInputs), if_neg (by simpa using hOutputs), if_neg hTotal] at h
    rw [Bool.not_eq_true, isNone_totalOutput_eq_false_iff] at hTotal
    cases hRepeat : firstRepeat [] (tx.inputs.map TxIn.point) with
    | some point => simp [hRepeat] at h
    | none =>
      refine ⟨hInputs, hOutputs, hTotal, ((firstRepeat_eq_none_iff _ _).1 hRepeat).1, ?_⟩
      intro hMint
      simpa [hRepeat, hMint] using h
  · rintro ⟨hInputs, hOutputs, hSum, hNodup, hSentinel⟩
    have hRepeat : firstRepeat [] (tx.inputs.map TxIn.point) = none :=
      (firstRepeat_eq_none_iff _ _).2 ⟨hNodup, by simp⟩
    have hAny : (!tx.isMint && tx.inputs.any TxIn.isMint) = false := by
      cases hMint : tx.isMint with
      | true => rfl
      | false => simpa using hSentinel hMint
    rw [if_neg (by simpa using hInputs), if_neg (by simpa using hOutputs),
      if_neg (Bool.not_eq_true _ ▸ (isNone_totalOutput_eq_false_iff tx).2 hSum), hRepeat, hAny]
    rfl

/-- The lookup gives an output exactly when the output that an input spends is known. -/
theorem spentOutput_eq_ok_iff (lookup : OutputLookup) (index : Nat) (input : TxIn)
    (output : TxOut) :
    spentOutput lookup index input = .ok output ↔ lookup input.point = some output := by
  unfold spentOutput
  cases lookup input.point with
  | none => simp
  | some known => simp

/-- An input that is there is unlocked exactly when it is the sentinel, or spends a known output that
its script unlocks. -/
theorem verifyInput_eq_ok_iff (rules : Rules) (lookup : OutputLookup) (cache : DigestCache)
    {index : Nat} {input : TxIn} (hInput : cache.tx.inputs[index]? = some input) :
    verifyInput rules lookup cache index = .ok () ↔
      input.isMint = true ∨ ∃ spent, lookup input.point = some spent ∧
        runScripts rules cache index input spent = .ok () := by
  unfold verifyInput
  rw [hInput]
  cases hMint : input.isMint with
  | true => simp [hMint]
  | false => simp [hMint, bind_eq_ok_iff, spentOutput_eq_ok_iff]

/-- The scripts of an input and of the output it spends succeed exactly when the input script only
pushes and runs to its end, and the output script succeeds on the stack that it leaves. -/
theorem runScripts_eq_ok_iff (rules : Rules) (cache : DigestCache) (index : Nat) (input : TxIn)
    (spent : TxOut) :
    runScripts rules cache index input spent = .ok () ↔
      input.script.isPushOnly = true ∧ ∃ state,
        Machine.execute input.script [] (some ⟨cache, index, spent.value, rules.scheme⟩)
          rules.params.maxScriptOps.toNat = (.ok (), state) ∧
        (Machine.evaluate spent.script state.stack
          (some ⟨cache, index, spent.value, rules.scheme⟩)
          rules.params.maxScriptOps.toNat).failure = none := by
  unfold runScripts
  split_ifs with hPush
  · simp only [hPush, true_and]
    -- The run is named, since the goal speaks of its result and of its state.
    generalize Machine.execute input.script [] _ _ = run
    obtain ⟨result, state⟩ := run
    dsimp only
    rw [andThen_eq_ok_iff]
    cases hFailure : (Machine.evaluate spent.script state.stack
        (some ⟨cache, index, spent.value, rules.scheme⟩)
        rules.params.maxScriptOps.toNat).failure with
    | none => simp [hFailure, pure, Except.pure]
    | some reason => simp [hFailure]
  · simp [hPush]

/-- An input that spends a known output is unlocked exactly when its script only pushes and runs to
its end, and the output script succeeds on the stack that it leaves. -/
theorem verifyInput_eq_ok_iff_of_spent (rules : Rules) {lookup : OutputLookup} {cache : DigestCache}
    {index : Nat} {input : TxIn} {spent : TxOut} (hInput : cache.tx.inputs[index]? = some input)
    (hMint : input.isMint = false) (hSpent : lookup input.point = some spent) :
    verifyInput rules lookup cache index = .ok () ↔
      input.script.isPushOnly = true ∧ ∃ state,
        Machine.execute input.script [] (some ⟨cache, index, spent.value, rules.scheme⟩)
          rules.params.maxScriptOps.toNat = (.ok (), state) ∧
        (Machine.evaluate spent.script state.stack
          (some ⟨cache, index, spent.value, rules.scheme⟩)
          rules.params.maxScriptOps.toNat).failure = none := by
  rw [← runScripts_eq_ok_iff, verifyInput_eq_ok_iff rules lookup cache hInput]
  simp [hMint, hSpent]

/-- The values that inputs spend add up to a word exactly when every input spends a known output and
their sum is that word. -/
theorem spentValue_eq_ok_iff (lookup : OutputLookup) (index : Nat) (start total : UInt64)
    (inputs : List TxIn) :
    spentValue lookup index start inputs = .ok total ↔
      ∃ spent, List.Forall₂ (fun input output => lookup input.point = some output) inputs spent ∧
        total.toNat = start.toNat + TxOut.sum spent := by
  induction inputs generalizing index start with
  | nil =>
    simp only [spentValue, Except.ok.injEq, List.forall₂_nil_left_iff, exists_eq_left,
      TxOut.sum_nil, Nat.add_zero, ← UInt64.toNat_inj]
    exact eq_comm
  | cons input rest ih =>
    simp only [spentValue, bind_eq_ok_iff, spentOutput_eq_ok_iff, List.forall₂_cons_left_iff]
    constructor
    · rintro ⟨output, hOutput, h⟩
      cases hNext : checkedAdd start output.value with
      | none => simp [hNext] at h
      | some next =>
        rw [hNext] at h
        obtain ⟨spent, hSpent, hTotal⟩ := (ih _ _).1 h
        refine ⟨output :: spent, ⟨output, spent, hOutput, hSpent, rfl⟩, ?_⟩
        rw [hTotal, (checkedAdd_eq_some_iff _ _ _).1 hNext, TxOut.sum_cons, Nat.add_assoc]
    · rintro ⟨_, ⟨output, spent, hOutput, hSpent, rfl⟩, hTotal⟩
      rw [TxOut.sum_cons, ← Nat.add_assoc] at hTotal
      -- The partial sum is at most the total, so it is a word too.
      obtain ⟨next, hNext, hSum⟩ := exists_checkedAdd_of_le start output.value total (by omega)
      refine ⟨output, hOutput, ?_⟩
      rw [hNext]
      exact (ih _ _).2 ⟨spent, hSpent, by rw [hSum, hTotal]⟩

/-- The inputs of a transaction are unlocked exactly when each is. -/
theorem verifyScripts_eq_ok_iff (rules : Rules) (lookup : OutputLookup) (tx : Tx) :
    verifyScripts rules lookup tx = .ok () ↔
      ∀ index input, tx.inputs[index]? = some input → input.isMint = true ∨
        ∃ spent, lookup input.point = some spent ∧
          runScripts rules (DigestCache.ofTx tx).fillAll index input spent = .ok () := by
  unfold verifyScripts
  rw [forM_eq_ok_iff]
  constructor
  · intro h index input hInput
    have hIndex : index < tx.inputs.length := (List.getElem?_eq_some_iff.1 hInput).1
    exact (verifyInput_eq_ok_iff rules lookup _ hInput).1 (h index (List.mem_range.2 hIndex))
  · intro h index hIndex
    have hInput := List.getElem?_eq_getElem (List.mem_range.1 hIndex)
    exact (verifyInput_eq_ok_iff rules lookup _ hInput).2 (h index _ hInput)

/-- The values of a transaction are right exactly when it mints, or every input spends a known output
and what they spend together is a word not below what is created. -/
theorem verifyAmounts_eq_ok_iff (lookup : OutputLookup) (tx : Tx) :
    verifyAmounts lookup tx = .ok () ↔ tx.isMint = true ∨
      ∃ spent, List.Forall₂ (fun input output => lookup input.point = some output) tx.inputs spent ∧
        TxOut.sum spent < 2 ^ 64 ∧ TxOut.sum tx.outputs ≤ TxOut.sum spent := by
  unfold verifyAmounts
  cases hMint : tx.isMint with
  | true => simp
  | false =>
    simp only [Bool.false_eq_true, if_false, bind_eq_ok_iff, spentValue_eq_ok_iff, false_or]
    constructor
    · rintro ⟨spentTotal, ⟨spent, hSpent, hSum⟩, h⟩
      have hSum' : spentTotal.toNat = TxOut.sum spent := by simpa using hSum
      refine ⟨spent, hSpent, hSum' ▸ spentTotal.toNat_lt, ?_⟩
      cases hCreated : tx.totalOutput with
      | none => simp [hCreated] at h
      | some created =>
        rw [← (totalOutput_eq_some_iff tx created).1 hCreated, ← hSum']
        by_contra hLess
        simp [hCreated, UInt64.lt_iff_toNat_lt, Nat.not_le.1 hLess] at h
    · rintro ⟨spent, hSpent, hWord, hLe⟩
      have hSum : (UInt64.ofNat (TxOut.sum spent)).toNat = TxOut.sum spent :=
        UInt64.toNat_ofNat_of_lt' hWord
      have hCreated : (UInt64.ofNat (TxOut.sum tx.outputs)).toNat = TxOut.sum tx.outputs :=
        UInt64.toNat_ofNat_of_lt' (Nat.lt_of_le_of_lt hLe hWord)
      refine ⟨UInt64.ofNat (TxOut.sum spent), ⟨spent, hSpent, ?_⟩, ?_⟩
      · rw [hSum, UInt64.toNat_zero, Nat.zero_add]
      rw [(totalOutput_eq_some_iff tx _).2 hCreated]
      simp only [UInt64.lt_iff_toNat_lt, hSum, hCreated]
      rw [if_neg (Nat.not_lt.2 hLe)]

/-- A transaction is accepted exactly when its structure, its scripts and its values are. -/
theorem verify_eq_ok_iff (rules : Rules) (lookup : OutputLookup) (tx : Tx) :
    tx.verify rules lookup = .ok () ↔ tx.WellStructured ∧
      tx.verifyScripts rules lookup = .ok () ∧ tx.verifyAmounts lookup = .ok () := by
  unfold verify
  rw [andThen_eq_ok_iff, andThen_eq_ok_iff, verifyStructure_eq_ok_iff]

/-! ## What acceptance implies -/

section Accepted

variable {rules : Rules} {lookup : OutputLookup} {tx : Tx}

/-- An accepted transaction spends known outputs only. -/
theorem exists_output_of_verify (h : tx.verify rules lookup = .ok ()) {point : OutPoint}
    (hPoint : point ∈ tx.spentPoints) : ∃ output, lookup point = some output := by
  obtain ⟨-, hScripts, -⟩ := (verify_eq_ok_iff rules lookup tx).1 h
  obtain ⟨input, hInput, hMint, rfl⟩ := mem_spentPoints.1 hPoint
  obtain ⟨index, hIndex⟩ := List.mem_iff_getElem?.1 hInput
  obtain hSentinel | ⟨spent, hSpent, -⟩ :=
    (verifyScripts_eq_ok_iff rules lookup tx).1 hScripts index input hIndex
  · simp [hMint] at hSentinel
  · exact ⟨spent, hSpent⟩

/-- No input of an accepted transaction that does not mint is the sentinel. -/
theorem isMint_eq_false_of_verify (h : tx.verify rules lookup = .ok ()) (hMint : tx.isMint = false)
    {input : TxIn} (hInput : input ∈ tx.inputs) : input.isMint = false :=
  ((verify_eq_ok_iff rules lookup tx).1 h).1.sentinel hMint input hInput

/-- An accepted transaction spends no outpoint twice. -/
theorem nodup_spentPoints_of_verify (h : tx.verify rules lookup = .ok ()) :
    tx.spentPoints.Nodup := by
  have hNodup := ((verify_eq_ok_iff rules lookup tx).1 h).1.nodup
  unfold spentPoints
  exact hNodup.sublist (List.filter_sublist.map _)

/-- An accepted transaction that does not mint spends something. -/
theorem spentPoints_ne_nil_of_verify (h : tx.verify rules lookup = .ok ())
    (hMint : tx.isMint = false) : tx.spentPoints ≠ [] := by
  rw [spentPoints_eq_map fun input hInput => isMint_eq_false_of_verify h hMint hInput]
  simpa using ((verify_eq_ok_iff rules lookup tx).1 h).1.inputs_ne_nil

/-- An accepted transaction that does not mint creates no more value than it spends. -/
theorem sum_outputs_le_of_verify (h : tx.verify rules lookup = .ok ()) (hMint : tx.isMint = false)
    {spent : List TxOut}
    (hSpent : List.Forall₂ (fun point output => lookup point = some output) tx.spentPoints spent) :
    TxOut.sum tx.outputs ≤ TxOut.sum spent := by
  obtain ⟨-, -, hAmounts⟩ := (verify_eq_ok_iff rules lookup tx).1 h
  obtain hMints | ⟨known, hKnown, -, hLe⟩ := (verifyAmounts_eq_ok_iff lookup tx).1 hAmounts
  · simp [hMint] at hMints
  · -- The outputs that the check added up are the given ones, since a lookup has one value only.
    rw [spentPoints_eq_map fun input hInput => isMint_eq_false_of_verify h hMint hInput,
      List.forall₂_map_left_iff] at hSpent
    have hUnique : Relator.RightUnique fun (input : TxIn) output => lookup input.point = some output :=
      fun _ _ _ hOne hOther => Option.some_inj.1 (hOne.symm.trans hOther)
    rw [List.right_unique_forall₂' hUnique hSpent hKnown]
    exact hLe

end Accepted

/-! ## What the verdict depends on -/

/-- The values that inputs spend depend on the lookup only at their outpoints. -/
theorem spentValue_congr {lookup other : OutputLookup} {inputs : List TxIn}
    (h : ∀ input ∈ inputs, lookup input.point = other input.point) (index : Nat) (sum : UInt64) :
    spentValue lookup index sum inputs = spentValue other index sum inputs := by
  induction inputs generalizing index sum with
  | nil => rfl
  | cons input rest ih =>
    have hRest := ih fun input hInput => h input (List.mem_cons_of_mem _ hInput)
    simp only [spentValue, spentOutput, h input List.mem_cons_self, hRest]

/-- The verdict on a transaction depends on the lookup only at the outpoints that it spends. -/
theorem verify_congr (rules : Rules) {lookup other : OutputLookup} {tx : Tx}
    (h : ∀ point ∈ tx.spentPoints, lookup point = other point) :
    tx.verify rules lookup = tx.verify rules other := by
  have hInput : ∀ input ∈ tx.inputs, input.isMint = false →
      lookup input.point = other input.point := fun input hMem hMint =>
    h _ (mem_spentPoints.2 ⟨input, hMem, hMint, rfl⟩)
  have hScripts : tx.verifyScripts rules lookup = tx.verifyScripts rules other := by
    have hEach : verifyInput rules lookup (DigestCache.ofTx tx).fillAll =
        verifyInput rules other (DigestCache.ofTx tx).fillAll := by
      funext index
      unfold verifyInput
      cases hIndex : (DigestCache.ofTx tx).fillAll.tx.inputs[index]? with
      | none => rfl
      | some input =>
        cases hMint : input.isMint with
        | true => simp [hMint]
        | false => simp only [spentOutput, hInput input (List.mem_of_getElem? hIndex) hMint]
    unfold verifyScripts
    dsimp only
    rw [hEach]
  unfold verify
  -- The values are looked up at every input, so the structure must first rule out the sentinel.
  cases hStructure : tx.verifyStructure with
  | error fault => rfl
  | ok _ =>
    have hAmounts : tx.verifyAmounts lookup = tx.verifyAmounts other := by
      unfold verifyAmounts
      cases hMint : tx.isMint with
      | true => rfl
      | false =>
        have hSentinel := ((verifyStructure_eq_ok_iff tx).1 hStructure).sentinel hMint
        rw [spentValue_congr fun input hMem => hInput input hMem (hSentinel input hMem)]
    rw [hScripts, hAmounts]

end Tx

end UtxoChain
