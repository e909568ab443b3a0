import UtxoChain.Proofs.Chain.Retarget
import UtxoChain.Rules.Header

/-!
# What an accepted header has passed

A header without a predecessor is accepted exactly if it starts a chain, and a header after another
exactly if it is worked for and has its place there (`BlockHeader.verify_some_eq_ok_iff`). The first
of a chain is exempt from work, but no header that follows another is: its index is not zero.
-/

namespace UtxoChain.BlockHeader

variable {params : Params} {adjustment : Option BlockHeader} {prev header : BlockHeader}

/-- A header has its place after another: it names that one, follows it in index and time, and carries
the target that is next. -/
structure Follows (params : Params) (adjustment : Option BlockHeader) (prev header : BlockHeader) :
    Prop where
  /-- The header names its predecessor. -/
  prevBlockId_eq : header.prevBlockId = prev.id
  /-- The index is the next one. -/
  index_eq : header.index.toNat = prev.index.toNat + 1
  /-- The time is not before that of the predecessor. -/
  timestamp_le : prev.timestamp ≤ header.timestamp
  /-- The parameters can be used. -/
  params_valid : params.Valid
  /-- The target is the next one. -/
  nextTarget_eq : prev.nextTarget adjustment header.index params = .ok header.target

/-- The check of the place of a header decides `Follows`. -/
theorem verifyLink_eq_ok_iff :
    header.verifyLink prev adjustment params = .ok () ↔ Follows params adjustment prev header := by
  have hOne : (1 : UInt64).toNat = 1 := rfl
  have hLess : header.timestamp < prev.timestamp ↔ ¬ prev.timestamp ≤ header.timestamp :=
    UInt64.not_le.symm
  unfold verifyLink
  -- The checks are gone through in their order: each one that fails ends the verdict.
  by_cases hId : header.prevBlockId = prev.id
  swap
  · rw [if_pos hId]
    exact iff_of_false nofun fun h => hId h.prevBlockId_eq
  rw [if_neg (not_not.2 hId)]
  by_cases hIndex : checkedAdd prev.index 1 = some header.index
  swap
  · rw [if_pos hIndex]
    rw [checkedAdd_eq_some_iff, hOne] at hIndex
    exact iff_of_false nofun fun h => hIndex h.index_eq
  rw [if_neg (not_not.2 hIndex)]
  rw [checkedAdd_eq_some_iff, hOne] at hIndex
  by_cases hTime : prev.timestamp ≤ header.timestamp
  swap
  · rw [if_pos (hLess.2 hTime)]
    exact iff_of_false nofun fun h => hTime h.timestamp_le
  rw [if_neg fun hBefore => hLess.1 hBefore hTime]
  cases hExpected : header.expectedTarget prev adjustment params with
  | error fault =>
    refine iff_of_false nofun fun h => ?_
    rw [(expectedTarget_eq_ok_iff hIndex).2 ⟨h.params_valid, h.nextTarget_eq⟩] at hExpected
    exact absurd hExpected nofun
  | ok expected =>
    obtain ⟨hValid, hNext⟩ := (expectedTarget_eq_ok_iff hIndex).1 hExpected
    dsimp only
    by_cases hTarget : header.target = expected
    · rw [if_pos hTarget]
      rw [← hTarget] at hNext
      exact iff_of_true rfl ⟨hId, hIndex, hTime, hValid, hNext⟩
    · rw [if_neg hTarget]
      refine iff_of_false nofun fun h => hTarget ?_
      exact Except.ok.inj (h.nextTarget_eq.symm.trans hNext)

/-- A header that follows another does not start a chain. -/
theorem Follows.isGenesis_eq_false (h : Follows params adjustment prev header) :
    header.isGenesis = false := by
  have hIndex : header.index ≠ 0 := by
    intro hZero
    have hNext := h.index_eq
    rw [hZero] at hNext
    exact Nat.succ_ne_zero _ hNext.symm
  unfold isGenesis
  simp [hIndex]

/-- The work of a header is that its digest is the lower number. -/
theorem meetsTarget_iff : header.meetsTarget = true ↔ header.hash.toNat < header.target.toNat := by
  unfold meetsTarget
  exact decide_eq_true_iff

/-- A header without a predecessor is accepted exactly if it starts a chain. -/
theorem verify_none_eq_ok_iff :
    header.verify params none adjustment = .ok () ↔ header.isGenesis = true := by
  unfold verify
  cases header.isGenesis with
  | true => simp
  | false =>
    cases header.meetsTarget with
    | true => simp
    | false => simp

/-- A header after another is accepted exactly if its digest is below its target and it has its place
there. -/
theorem verify_some_eq_ok_iff :
    header.verify params (some prev) adjustment = .ok () ↔
      header.meetsTarget = true ∧ Follows params adjustment prev header := by
  unfold verify
  dsimp only
  rw [← verifyLink_eq_ok_iff]
  cases hWork : header.meetsTarget with
  | true => simp
  | false =>
    refine iff_of_false ?_ (by simp)
    cases hGenesis : header.isGenesis with
    | false => simp
    | true =>
      -- A header that starts a chain is not worked for, but has no place after another.
      intro h
      have hLink : header.verifyLink prev adjustment params = .ok () := by simpa using h
      rw [(verifyLink_eq_ok_iff.1 hLink).isGenesis_eq_false] at hGenesis
      exact absurd hGenesis (by decide)

end UtxoChain.BlockHeader
