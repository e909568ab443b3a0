import UtxoChain.Proofs.Wallet.Requests

/-!
# When a built transaction is well formed

What a payment builds balances: it creates the value that it spends. Its structure need not be
accepted, for two things that the rules forbid are not looked at when a payment is put together. An
output may be asked for twice as an input, and is then counted twice; and inputs without value leave
nothing to create, so that there are no outputs. `verify_built` says that nothing else is wrong with a
transaction that is built.
-/

namespace UtxoChain

/-- An outpoint that is found to repeat among some that were seen and some that follow occurs twice
among all of them. -/
theorem two_le_count_of_firstRepeat {seen points : List OutPoint} {point : OutPoint}
    (h : firstRepeat seen points = some point) : 2 ≤ (seen ++ points).count point := by
  induction points generalizing seen with
  | nil => simp [firstRepeat] at h
  | cons first rest ih =>
    rw [firstRepeat] at h
    split_ifs at h with hSeen
    · obtain rfl := Option.some.inj h
      have hBefore : 0 < seen.count first := List.count_pos_iff.2 hSeen
      rw [List.count_append, List.count_cons_self]
      omega
    · have hRest := ih h
      rw [List.perm_middle.count_eq]
      exact hRest

/-- Only the sentinel is told for the sentinel. -/
theorem OutPoint.eq_mint_of_isMint {point : OutPoint} (h : point.isMint = true) : point = .mint := by
  unfold OutPoint.isMint at h
  rw [Bool.and_eq_true] at h
  obtain ⟨hId, hIndex⟩ := h
  have hZero : ∀ byte ∈ point.txId.toBytes, byte = 0 := by
    simpa [FixedBytes.isZero, Bytes.isZero] using hId
  have hBytes : point.txId.toBytes = List.replicate 32 0 :=
    List.eq_replicate_iff.2 ⟨point.txId.length_toBytes, hZero⟩
  have hTxId : point.txId = FixedBytes.zero := FixedBytes.toBytes_inj.1 hBytes
  calc point = ⟨point.txId, point.index⟩ := rfl
    _ = .mint := by rw [hTxId, LawfulBEq.eq_of_beq hIndex, OutPoint.mint]

/-- Where no output is known under the sentinel, inputs that spend known outputs are not the
sentinel. -/
theorem isMint_eq_false_of_known {lookup : OutputLookup} {inputs : List TxIn} {spent : List TxOut}
    (hMint : lookup .mint = none)
    (hKnown : List.Forall₂ (fun input output => lookup input.point = some output) inputs spent) :
    ∀ input ∈ inputs, input.isMint = false := by
  have hEach : List.Forall₂ (fun input output => input.isMint = false ∧
      lookup input.point = some output) inputs spent := by
    refine hKnown.imp fun input output hOutput => ⟨?_, hOutput⟩
    cases hIsMint : input.isMint with
    | false => rfl
    | true =>
      rw [OutPoint.eq_mint_of_isMint hIsMint, hMint] at hOutput
      exact absurd hOutput nofun
  exact ((List.forall₂_and_left _ _).1 hEach).1

namespace Tx

/-- The structure of a transaction that has inputs, none of them the sentinel, and whose outputs fit a
word can be at fault in two ways: there are no outputs, or an outpoint is spent twice. -/
theorem eq_of_verifyStructure_error {tx : Tx} {fault : TxFault} (hInputs : tx.inputs ≠ [])
    (hSum : TxOut.sum tx.outputs < 2 ^ 64) (hSentinel : ∀ input ∈ tx.inputs, input.isMint = false)
    (h : tx.verifyStructure = .error fault) :
    (fault = .noOutputs ∧ tx.outputs = []) ∨ ∃ point, fault = .duplicateInput point ∧
      2 ≤ (tx.inputs.map TxIn.point).count point := by
  have hTotal : tx.totalOutput.isNone = false := (isNone_totalOutput_eq_false_iff tx).2 hSum
  have hStray : tx.inputs.any TxIn.isMint = false := by
    simpa using hSentinel
  unfold verifyStructure at h
  rw [if_neg (by simpa using hInputs)] at h
  by_cases hOutputs : tx.outputs = []
  · rw [if_pos (by simpa using hOutputs)] at h
    exact .inl ⟨(Except.error.inj h).symm, hOutputs⟩
  · rw [if_neg (by simpa using hOutputs), hTotal, if_neg Bool.false_ne_true] at h
    cases hRepeat : firstRepeat [] (tx.inputs.map TxIn.point) with
    | some point =>
      rw [hRepeat] at h
      exact .inr ⟨point, (Except.error.inj h).symm, two_le_count_of_firstRepeat hRepeat⟩
    | none => simp [hRepeat, hStray] at h

end Tx

namespace Payment

variable {lookup : OutputLookup} {changeScript : Script}

/-- A transaction that is built has no outputs exactly if none was asked for and the inputs have no
value. -/
theorem outputs_eq_nil_iff_of_build {requests : List Request} {tx : Tx}
    (hBuild : (serveAll lookup requests (start changeScript)).2.build = .ok tx) :
    tx.outputs = [] ↔ requested requests = [] ∧
      (serveAll lookup requests (start changeScript)).2.inputAmount = 0 := by
  obtain ⟨-, -, ⟨change, hOutputs, -, hPays⟩, hSum⟩ := built_serveAll hBuild
  rw [← UInt64.toNat_inj, UInt64.toNat_zero, ← hSum, hOutputs]
  constructor
  · intro hNil
    rw [hNil]
    exact ⟨(List.append_eq_nil_iff.1 hNil).1, TxOut.sum_nil⟩
  · rintro ⟨hRequested, hZero⟩
    rw [hRequested, List.nil_append] at hZero ⊢
    -- A change would be worth something.
    cases change with
    | nil => rfl
    | cons output others =>
      have hPositive : 0 < output.value.toNat := (hPays output List.mem_cons_self).1
      rw [TxOut.sum_cons] at hZero
      omega

/-- After any requests over outputs of which none stands under the sentinel, a transaction that is built
balances. Its structure is accepted exactly if no output was granted as an input twice, and an output
was asked for or the inputs have a value; and it is at fault in no other way. -/
theorem verify_built (lookup : OutputLookup) (changeScript : Script) (requests : List Request)
    (tx : Tx) (hMint : lookup .mint = none)
    (hBuild : (serveAll lookup requests (start changeScript)).2.build = .ok tx) :
    tx.verifyAmounts lookup = .ok () ∧
    (tx.verifyStructure = .ok () ↔
      (points (serveAll lookup requests (start changeScript)).1).Nodup ∧
        ¬ (requested requests = [] ∧
          (serveAll lookup requests (start changeScript)).2.inputAmount = 0)) ∧
    ∀ fault, tx.verifyStructure = .error fault →
      (fault = .noOutputs ∧ requested requests = [] ∧
        (serveAll lookup requests (start changeScript)).2.inputAmount = 0) ∨
      ∃ point, fault = .duplicateInput point ∧
        2 ≤ (points (serveAll lookup requests (start changeScript)).1).count point := by
  obtain ⟨spent, hFunded⟩ := (holds_serveAll lookup changeScript requests).funded
  obtain ⟨hInputs, -, hKnown, hWord, hBalance⟩ := hFunded.of_build hBuild
  have hPoints : tx.inputs.map TxIn.point =
      points (serveAll lookup requests (start changeScript)).1 := by
    rw [(built_serveAll hBuild).1, List.map_map]
    exact List.map_id _
  have hSentinel := isMint_eq_false_of_known hMint hKnown
  have hSum : TxOut.sum tx.outputs < 2 ^ 64 := hBalance ▸ hWord
  refine ⟨?_, ?_, ?_⟩
  · rw [Tx.verifyAmounts_eq_ok_iff]
    exact .inr ⟨spent, hKnown, hWord, hBalance.le⟩
  · rw [Tx.verifyStructure_eq_ok_iff, ← outputs_eq_nil_iff_of_build hBuild, ← hPoints]
    constructor
    · intro hStructure
      exact ⟨hStructure.nodup, hStructure.outputs_ne_nil⟩
    · rintro ⟨hNodup, hOutputs⟩
      exact ⟨hInputs, hOutputs, hSum, hNodup, fun _ => hSentinel⟩
  · intro fault hFault
    rw [← outputs_eq_nil_iff_of_build hBuild, ← hPoints]
    exact Tx.eq_of_verifyStructure_error hInputs hSum hSentinel hFault

end Payment

namespace Sample

/-- What is built of the mixed requests is accepted. -/
theorem verify_built_mixed : purse .mint = none ∧
    ∃ tx, (Payment.serveAll purse mixedRequests (.start purseScript)).2.build = .ok tx ∧
      tx.verifyAmounts purse = .ok () ∧ tx.verifyStructure = .ok () := by
  have hMint : purse .mint = none := by decide
  have hBuild : (Payment.serveAll purse mixedRequests (.start purseScript)).2.build =
      .ok ⟨0, [⟨tenPoint, .empty, 0⟩, ⟨nothingPoint, .empty, 0⟩],
        [⟨4, purseScript⟩, ⟨6, purseScript⟩], 8⟩ := by
    decide +kernel
  obtain ⟨hAmounts, hStructure, -⟩ :=
    Payment.verify_built purse purseScript mixedRequests _ hMint hBuild
  exact ⟨hMint, _, hBuild, hAmounts, hStructure.2 (by decide +kernel)⟩

/-- An output that is worth ten pays for one that is worth twenty, if it is asked for twice; and an
output that is worth nothing leads to a transaction without outputs. Both are built, and both are
refused. -/
theorem verifyStructure_built_refused : purse .mint = none ∧
    (∃ tx, (Payment.serveAll purse [.input tenPoint, .input tenPoint, .output ⟨20, purseScript⟩]
        (.start purseScript)).2.build = .ok tx ∧
      tx.outputs = [⟨20, purseScript⟩] ∧
      tx.verifyStructure = .error (.duplicateInput tenPoint)) ∧
    ∃ tx, (Payment.serveAll purse [.input nothingPoint] (.start purseScript)).2.build = .ok tx ∧
      tx.outputs = [] ∧ tx.verifyStructure = .error .noOutputs :=
  ⟨by decide,
    ⟨⟨0, [⟨tenPoint, .empty, 0⟩, ⟨tenPoint, .empty, 0⟩], [⟨20, purseScript⟩], 0⟩,
      by decide +kernel, rfl, by decide +kernel⟩,
    ⟨⟨0, [⟨nothingPoint, .empty, 0⟩], [], 0⟩, by decide +kernel, rfl, by decide +kernel⟩⟩

end Sample

end UtxoChain
