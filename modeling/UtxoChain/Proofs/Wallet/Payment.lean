import UtxoChain.Proofs.Rules.Transaction
import UtxoChain.Wallet.Payment

/-!
# What payments hold

A payment is made by any sequence of operations, refused ones among them. What it holds is described
by one record (`Payment.Funded`), which every operation keeps: its inputs are unsigned, each spends a
known output that a key can sign for, and the amount is the sum of the values of these outputs. A
transaction that is built therefore creates exactly the value that it spends.
-/

namespace UtxoChain.Payment

open Stateful

variable {lookup : OutputLookup} {payment : Payment}

/-- A payment that some sequence of operations over a lookup leads to. An input that is refused is an
operation too. -/
inductive Made (lookup : OutputLookup) : Payment → Prop
  /-- The payment without inputs and outputs. -/
  | start (changeScript : Script) : Made lookup (start changeScript)
  /-- An input was added. -/
  | added {payment next : Payment} (point : OutPoint) (made : Made lookup payment)
      (ok : addInput lookup point payment = .ok () next) : Made lookup next
  /-- An input was refused. -/
  | refused {payment next : Payment} (point : OutPoint) {fault : BuildFault}
      (made : Made lookup payment) (error : addInput lookup point payment = .error fault next) :
      Made lookup next
  /-- An output was added. -/
  | paid {payment : Payment} (output : TxOut) (made : Made lookup payment) :
      Made lookup (payment.addOutput output)
  /-- The absolute lock was set. -/
  | locked {payment : Payment} (lockAbs : UInt32) (made : Made lookup payment) :
      Made lookup (payment.withLockAbs lockAbs)

/-- The inputs are unsigned, and the amount is the value of the outputs that they spend. -/
structure Funded (lookup : OutputLookup) (payment : Payment) (spent : List TxOut) : Prop where
  /-- The inputs have neither script nor lock. -/
  unsigned : ∀ input ∈ payment.inputs, input = ⟨input.point, .empty, 0⟩
  /-- Each input spends the known output at its place. -/
  known : List.Forall₂ (fun input output => lookup input.point = some output) payment.inputs spent
  /-- Each of these outputs is locked to the hash of a key. -/
  signable : ∀ output ∈ spent, output.script.signingHash?.isSome = true
  /-- The amount is the sum of their values. -/
  amount_eq : payment.inputAmount.toNat = TxOut.sum spent

/-- An input is added exactly if it spends a known output that is locked to the hash of a key, and the
amount stays a word. -/
theorem addInput_ok_iff {point : OutPoint} {next : Payment} :
    addInput lookup point payment = .ok () next ↔
      ∃ spent amount, lookup point = some spent ∧ spent.script.signingHash?.isSome = true ∧
        checkedAdd payment.inputAmount spent.value = some amount ∧
        next = { payment with
          inputAmount := amount, inputs := payment.inputs ++ [⟨point, .empty, 0⟩] } := by
  unfold addInput
  cases hSpent : lookup point with
  | none => simp [throw_ok_iff]
  | some spent =>
    cases hHash : spent.script.signingHash? with
    | none => simp [hHash, throw_ok_iff]
    | some hash =>
      simp only [hHash, Option.isNone_some, Bool.false_eq_true, if_false, bind_ok_iff, get_ok_iff]
      cases hAmount : checkedAdd payment.inputAmount spent.value with
      | none => simp [hAmount, hHash, throw_ok_iff]
      | some amount => simp [hAmount, hHash, modify_ok_iff]

/-- An input that is refused leaves the payment as it was. -/
theorem eq_of_addInput_error {point : OutPoint} {fault : BuildFault} {next : Payment}
    (h : addInput lookup point payment = .error fault next) : next = payment := by
  -- Each of the three refusals comes before the payment is changed.
  unfold addInput at h
  cases hSpent : lookup point with
  | none =>
    rw [hSpent] at h
    exact (EStateM.Result.error.inj h).2.symm
  | some spent =>
    simp only [hSpent] at h
    split_ifs at h with hHash
    · exact (EStateM.Result.error.inj h).2.symm
    · have hGet : (get : EStateM BuildFault Payment Payment) payment = .ok payment payment := rfl
      rw [bind_of_ok hGet] at h
      cases hAmount : checkedAdd payment.inputAmount spent.value with
      | none =>
        rw [hAmount] at h
        exact (EStateM.Result.error.inj h).2.symm
      | some amount =>
        rw [hAmount] at h
        exact absurd h modify_ne_error

/-- An input that is added keeps a payment funded. -/
theorem Funded.added {spent : List TxOut} (h : Funded lookup payment spent) {point : OutPoint}
    {next : Payment} (hAdded : addInput lookup point payment = .ok () next) :
    ∃ output, Funded lookup next (spent ++ [output]) := by
  obtain ⟨output, amount, hKnown, hHash, hAmount, rfl⟩ := addInput_ok_iff.1 hAdded
  rw [checkedAdd_eq_some_iff] at hAmount
  refine ⟨output, ?_, ?_, ?_, ?_⟩
  · intro input hInput
    rcases List.mem_append.1 hInput with hOld | hNew
    · exact h.unsigned input hOld
    · rw [List.mem_singleton.1 hNew]
  · exact List.rel_append h.known (.cons hKnown .nil)
  · intro other hOther
    rcases List.mem_append.1 hOther with hOld | hNew
    · exact h.signable other hOld
    · rw [List.mem_singleton.1 hNew, hHash]
  · rw [TxOut.sum_append, TxOut.sum_cons, TxOut.sum_nil, Nat.add_zero, ← h.amount_eq]
    exact hAmount

/-- What funds a payment does not depend on its outputs and its lock. -/
theorem Funded.congr {spent : List TxOut} (h : Funded lookup payment spent) {other : Payment}
    (hInputs : other.inputs = payment.inputs) (hAmount : other.inputAmount = payment.inputAmount) :
    Funded lookup other spent := by
  obtain ⟨hUnsigned, hKnown, hSignable, hSum⟩ := h
  rw [← hInputs] at hUnsigned hKnown
  rw [← hAmount] at hSum
  exact ⟨hUnsigned, hKnown, hSignable, hSum⟩

/-- Every payment that is made is funded by outputs of the lookup. -/
theorem Made.exists_funded (h : Made lookup payment) : ∃ spent, Funded lookup payment spent := by
  induction h with
  | start changeScript => exact ⟨[], by simp [Payment.start], .nil, by simp, rfl⟩
  | added point _ ok ih =>
    obtain ⟨spent, hFunded⟩ := ih
    obtain ⟨output, hNext⟩ := hFunded.added ok
    exact ⟨spent ++ [output], hNext⟩
  -- A refused input, an output and a lock leave inputs and amount as they are.
  | refused point _ error ih =>
    rw [eq_of_addInput_error error]
    exact ih
  | paid output _ ih =>
    obtain ⟨spent, hFunded⟩ := ih
    exact ⟨spent, hFunded.congr rfl rfl⟩
  | locked lockAbs _ ih =>
    obtain ⟨spent, hFunded⟩ := ih
    exact ⟨spent, hFunded.congr rfl rfl⟩

/-! ## The transaction of a payment -/

/-- The outputs with the change are worth the amount. -/
theorem sum_outputsWithChange {taken : UInt64} (hTaken : taken.toNat = TxOut.sum payment.outputs)
    (hLe : taken ≤ payment.inputAmount) :
    TxOut.sum (payment.outputsWithChange taken) = payment.inputAmount.toNat := by
  have hChange : (payment.inputAmount - taken).toNat = payment.inputAmount.toNat - taken.toNat :=
    UInt64.toNat_sub_of_le _ _ hLe
  have hLeNat : taken.toNat ≤ payment.inputAmount.toNat := hLe
  -- Without change the outputs take the amount to the last unit.
  unfold outputsWithChange
  dsimp only
  split_ifs with hZero
  · rw [hZero, UInt64.toNat_zero] at hChange
    omega
  · rw [TxOut.sum_append, TxOut.sum_cons, TxOut.sum_nil, hChange]
    omega

/-- A transaction is built exactly if there are inputs, and its outputs take a word that the amount
covers. -/
theorem build_eq_ok_iff {tx : Tx} :
    payment.build = .ok tx ↔ payment.inputs ≠ [] ∧ ∃ taken : UInt64,
      taken.toNat = TxOut.sum payment.outputs ∧ taken ≤ payment.inputAmount ∧
      tx = ⟨txVersion, payment.inputs, payment.outputsWithChange taken, payment.lockAbs⟩ := by
  simp only [← TxOut.total_eq_some_iff]
  unfold build
  cases hInputs : payment.inputs with
  | nil => simp
  | cons first others =>
    rw [List.isEmpty_cons, if_neg Bool.false_ne_true, and_iff_right (List.cons_ne_nil first others)]
    cases hTaken : TxOut.total payment.outputs with
    | none => simp
    | some taken =>
      by_cases hShort : payment.inputAmount < taken
      · simp [hShort, UInt64.not_le.2 hShort]
      · simp [hShort, UInt64.not_lt.1 hShort, eq_comm]

/-- A transaction that is built of a funded payment has unsigned inputs that spend known outputs, and
creates the value that it spends. -/
theorem Funded.of_build {spent : List TxOut} (h : Funded lookup payment spent) {tx : Tx}
    (hBuild : payment.build = .ok tx) :
    tx.inputs ≠ [] ∧ (∀ input ∈ tx.inputs, input = ⟨input.point, .empty, 0⟩) ∧
      List.Forall₂ (fun input output => lookup input.point = some output) tx.inputs spent ∧
      TxOut.sum spent < 2 ^ 64 ∧ TxOut.sum tx.outputs = TxOut.sum spent := by
  obtain ⟨hInputs, taken, hTaken, hLe, rfl⟩ := build_eq_ok_iff.1 hBuild
  rw [← h.amount_eq]
  exact ⟨hInputs, h.unsigned, h.known, payment.inputAmount.toNat_lt,
    sum_outputsWithChange hTaken hLe⟩

/-- A transaction that is built of a made payment has unsigned inputs that spend known outputs, and
creates the value that it spends. -/
theorem Made.of_build (h : Made lookup payment) {tx : Tx} (hBuild : payment.build = .ok tx) :
    tx.inputs ≠ [] ∧ (∀ input ∈ tx.inputs, input = ⟨input.point, .empty, 0⟩) ∧ ∃ spent,
      List.Forall₂ (fun input output => lookup input.point = some output) tx.inputs spent ∧
      TxOut.sum spent < 2 ^ 64 ∧ TxOut.sum tx.outputs = TxOut.sum spent := by
  obtain ⟨spent, hFunded⟩ := h.exists_funded
  obtain ⟨hInputs, hUnsigned, hKnown⟩ := hFunded.of_build hBuild
  exact ⟨hInputs, hUnsigned, spent, hKnown⟩

end UtxoChain.Payment
