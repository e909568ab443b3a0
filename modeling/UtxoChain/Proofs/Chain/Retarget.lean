import Mathlib.Tactic.SplitIfs
import UtxoChain.Chain.Retarget
import UtxoChain.Proofs.Bytes.Positional
import UtxoChain.Proofs.Rules.Transaction

/-!
# What is proposed after a header

When parameters can be used, which number a new target is (`Params.Valid.newTarget_eq`), and which
headers are proposed as successors (`BlockHeader.successor_eq_ok_iff`). A period counts as at least half and at most four
times what it should be, so a new target lies between about half and four times the old one
(`newTarget_between`).

All conditions are over unbounded numbers. The words in which the program computes do not overflow:
parameters that can be used leave room for four periods, and a checked sum is a sum.
-/

namespace UtxoChain

namespace FixedBytes

/-- A number that fits the width is the number of its bytes. -/
theorem toNat_ofNat_of_lt {width n : Nat} (h : n < 256 ^ width) :
    (ofNat n : FixedBytes width).toNat = n :=
  Bytes.toNatBE_ofNatBE_of_lt h

/-- A string of fixed width is the one of its number. -/
theorem ofNat_toNat {width : Nat} (fixed : FixedBytes width) : ofNat fixed.toNat = fixed := by
  apply toBytes_inj.1
  show Bytes.ofNatBE width (Bytes.toNatBE fixed.toBytes) = fixed.toBytes
  have hBytes := Bytes.ofNatBE_toNatBE fixed.toBytes
  rw [fixed.length_toBytes] at hBytes
  exact hBytes

/-- The number of a string is one of its width. -/
theorem toNat_lt {width : Nat} (fixed : FixedBytes width) : fixed.toNat < 256 ^ width := by
  have hLess := Bytes.toNatBE_lt fixed.toBytes
  rw [fixed.length_toBytes] at hLess
  exact hLess

end FixedBytes

/-! ## Parameters -/

namespace Params

variable {params : Params}

/-- Parameters that can be used: no period is empty, and four of them fit a word. -/
structure Valid (params : Params) : Prop where
  /-- A period has blocks. -/
  blocks_pos : 0 < params.blocksPerAdjustment.toNat
  /-- A block takes time. -/
  seconds_pos : 0 < params.blockIntervalSeconds.toNat
  /-- The longest time that a period counts as is a word. -/
  interval_lt : params.exactInterval * 4 < 2 ^ 64

/-- The check of parameters decides `Valid`. -/
theorem validate_eq_ok_iff : params.validate = .ok () ↔ params.Valid := by
  have hSize : UInt64.size = 2 ^ 64 := rfl
  have hBlocks : params.blocksPerAdjustment = 0 ↔ params.blocksPerAdjustment.toNat = 0 :=
    UInt64.toNat_inj.symm
  have hSeconds : params.blockIntervalSeconds = 0 ↔ params.blockIntervalSeconds.toNat = 0 :=
    UInt64.toNat_inj.symm
  unfold validate
  simp only [hBlocks, hSeconds, hSize]
  split_ifs with hZero hWide
  · rw [false_iff]
    intro h
    have hPos := h.blocks_pos
    have hPos' := h.seconds_pos
    omega
  · rw [false_iff]
    intro h
    have hLess := h.interval_lt
    omega
  · exact iff_of_true rfl ⟨by omega, by omega, by omega⟩

/-- A period takes time. -/
theorem Valid.exactInterval_pos (h : params.Valid) : 0 < params.exactInterval :=
  Nat.mul_pos h.blocks_pos h.seconds_pos

/-- The seconds of a period are exact. -/
theorem Valid.toNat_adjustmentInterval (h : params.Valid) :
    params.adjustmentInterval.toNat = params.exactInterval := by
  have hLess := h.interval_lt
  have hSize : UInt64.size = 2 ^ 64 := rfl
  unfold adjustmentInterval
  rw [Nat.min_eq_left (by omega), UInt64.toNat_ofNat_of_lt' (by omega)]

/-- The target is adjusted at the multiples of the length of a period, save at the start. -/
theorem Valid.isAdjustmentIndex_iff (h : params.Valid) {index : UInt64} (hIndex : 0 < index.toNat) :
    params.isAdjustmentIndex index = true ↔
      params.blocksPerAdjustment.toNat ∣ index.toNat := by
  have hLess : (0 : UInt64) < index := UInt64.lt_iff_toNat_lt.2 hIndex
  have hBlocks : params.blocksPerAdjustment ≠ 0 := by
    intro hZero
    have hPos := h.blocks_pos
    rw [hZero] at hPos
    exact Nat.lt_irrefl 0 hPos
  unfold isAdjustmentIndex
  rw [Nat.dvd_iff_mod_eq_zero, ← UInt64.toNat_mod]
  simp [hLess, hBlocks, ← UInt64.toNat_inj]

end Params

/-! ## New targets -/

/-- A period counts as at least half of what it should be. -/
theorem half_le_clampPeriod (interval elapsed : Nat) :
    interval / 2 ≤ clampPeriod interval elapsed := by
  unfold clampPeriod
  omega

/-- A period counts as at most four times what it should be. -/
theorem clampPeriod_le (interval elapsed : Nat) :
    clampPeriod interval elapsed ≤ interval * 4 := by
  unfold clampPeriod
  omega

/-- The number that a period makes of a target: the target times what the period counts as, divided by
what it should be and rounded down. -/
def Params.scaled (params : Params) (target elapsed : Nat) : Nat :=
  target * clampPeriod params.exactInterval elapsed / params.exactInterval

/-- No period makes more than four times of a target. -/
theorem Params.Valid.scaled_le {params : Params} (h : params.Valid) (target elapsed : Nat) :
    params.scaled target elapsed ≤ 4 * target := by
  have hHigh := clampPeriod_le params.exactInterval elapsed
  calc target * clampPeriod params.exactInterval elapsed / params.exactInterval
      ≤ target * (params.exactInterval * 4) / params.exactInterval :=
        Nat.div_le_div_right (Nat.mul_le_mul_left target hHigh)
    _ = params.exactInterval * (4 * target) / params.exactInterval := by
        congr 1
        ring
    _ = 4 * target := Nat.mul_div_cancel_left _ h.exactInterval_pos

variable {params : Params} {target next : Hash256} {elapsed : UInt64}

/-- Parameters that cannot be used make no target. -/
theorem newTarget_of_validate_error {fault : ParamsFault} (h : params.validate = .error fault) :
    newTarget target elapsed params = .error (.params fault) := by
  unfold newTarget
  rw [h]
  rfl

/-- Parameters that can be used make the number of the new target, if it fits. -/
theorem Params.Valid.newTarget_eq (h : params.Valid) (target : Hash256) (elapsed : UInt64) :
    newTarget target elapsed params =
      if params.scaled target.toNat elapsed.toNat < 256 ^ 32 then
        .ok (FixedBytes.ofNat (params.scaled target.toNat elapsed.toNat))
      else .error .targetTooLarge := by
  unfold newTarget Params.scaled
  rw [Params.validate_eq_ok_iff.2 h, h.toNat_adjustmentInterval]
  rfl

/-- The new target is the old one scaled by the time that the period counts as, rounded down. -/
theorem newTarget_eq_ok_iff :
    newTarget target elapsed params = .ok next ↔
      params.Valid ∧ next.toNat = params.scaled target.toNat elapsed.toNat := by
  cases hCheck : params.validate with
  | error fault =>
    rw [newTarget_of_validate_error hCheck, ← Params.validate_eq_ok_iff, hCheck]
    simp
  | ok done =>
    have hValid := Params.validate_eq_ok_iff.1 hCheck
    rw [hValid.newTarget_eq, and_iff_right hValid]
    split_ifs with hFits
    · constructor
      · intro h
        rw [← Except.ok.inj h]
        exact FixedBytes.toNat_ofNat_of_lt hFits
      · intro h
        rw [← h, FixedBytes.ofNat_toNat]
    · rw [false_iff]
      intro h
      rw [← h] at hFits
      exact hFits next.toNat_lt

/-- A new target is at most four times the old one, and not below what half a period makes of it. -/
theorem newTarget_between (h : newTarget target elapsed params = .ok next) :
    target.toNat * (params.exactInterval / 2) / params.exactInterval ≤ next.toNat ∧
      next.toNat ≤ 4 * target.toNat := by
  obtain ⟨hValid, hNext⟩ := newTarget_eq_ok_iff.1 h
  have hLow := half_le_clampPeriod params.exactInterval elapsed.toNat
  rw [hNext]
  constructor
  · exact Nat.div_le_div_right (Nat.mul_le_mul_left target.toNat hLow)
  · exact hValid.scaled_le _ _

/-! ## Successors -/

namespace BlockHeader

variable {prev header : BlockHeader} {adjustment : Option BlockHeader} {index : UInt64}

/-- The seconds between two headers, and none if the later one has the earlier time. -/
def secondsSince (prev opening : BlockHeader) : UInt64 :=
  if opening.timestamp ≤ prev.timestamp then prev.timestamp - opening.timestamp else 0

/-- Where the target is kept, the next target is that of the predecessor. -/
theorem nextTarget_of_kept (hKept : params.isAdjustmentIndex index = false) :
    prev.nextTarget adjustment index params = .ok prev.target := by
  unfold nextTarget
  rw [if_neg (by simp [hKept])]

/-- Where the target is adjusted, the header that opened the period must be given, and the next target
is the one that the time since then makes of the old one. -/
theorem nextTarget_eq_ok_iff_of_adjusted (hAdjusted : params.isAdjustmentIndex index = true) :
    prev.nextTarget adjustment index params = .ok target ↔
      ∃ opening, adjustment = some opening ∧
        index.toNat = opening.index.toNat + params.blocksPerAdjustment.toNat ∧
        newTarget prev.target (prev.secondsSince opening) params = .ok target := by
  unfold nextTarget
  rw [if_pos hAdjusted]
  cases adjustment with
  | none => simp
  | some opening =>
    simp only [Option.some_inj, exists_eq_left']
    by_cases hOpens : checkedAdd opening.index params.blocksPerAdjustment = some index
    · rw [if_pos hOpens]
      rw [checkedAdd_eq_some_iff] at hOpens
      exact (and_iff_right hOpens).symm
    · rw [if_neg hOpens]
      rw [checkedAdd_eq_some_iff] at hOpens
      simp [hOpens]

/-- A header is proposed after another exactly when the parameters can be used, its index follows, its
target is the next one, and all else in it is given. -/
theorem successor_eq_ok_iff {timestamp : UInt64} :
    prev.successor adjustment timestamp params = .ok header ↔ params.Valid ∧
      header.index.toNat = prev.index.toNat + 1 ∧
      prev.nextTarget adjustment header.index params = .ok header.target ∧
      header = ⟨proposedVersion, prev.id, FixedBytes.zero, timestamp, header.target,
        FixedBytes.zero, header.index⟩ := by
  have hOne : (1 : UInt64).toNat = 1 := rfl
  unfold successor
  rw [andThen_eq_ok_iff, mapError_eq_ok_iff, Params.validate_eq_ok_iff]
  refine and_congr_right fun _ => ?_
  cases hIndex : checkedAdd prev.index 1 with
  | none =>
    refine iff_of_false throw_ne_ok ?_
    rintro ⟨hFollows, -⟩
    rw [(checkedAdd_eq_some_iff _ _ header.index).2 hFollows] at hIndex
    exact absurd hIndex (by simp)
  | some index =>
    have hFollows := (checkedAdd_eq_some_iff _ _ _).1 hIndex
    rw [hOne] at hFollows
    rw [bind_eq_ok_iff]
    constructor
    · rintro ⟨target, hTarget, h⟩
      rw [← Except.ok.inj h]
      exact ⟨hFollows, hTarget, rfl⟩
    · rintro ⟨hFollows', hTarget, hHeader⟩
      have hSame : header.index = index := by
        apply UInt64.toNat_inj.1
        rw [hFollows', hFollows]
      rw [hSame] at hTarget hHeader
      refine ⟨header.target, hTarget, ?_⟩
      rw [hHeader]
      rfl

/-- The target that a header must carry is the next one after its predecessor, if the parameters can
be used and the index of the header follows. -/
theorem expectedTarget_eq_ok_iff (hIndex : header.index.toNat = prev.index.toNat + 1) :
    header.expectedTarget prev adjustment params = .ok target ↔ params.Valid ∧
      prev.nextTarget adjustment header.index params = .ok target := by
  have hMap : header.expectedTarget prev adjustment params = .ok target ↔
      ∃ proposed, prev.successor adjustment header.timestamp params = .ok proposed ∧
        proposed.target = target := by
    unfold expectedTarget
    cases prev.successor adjustment header.timestamp params with
    | error fault => simp [Except.map]
    | ok proposed => simp [Except.map]
  rw [hMap]
  simp only [successor_eq_ok_iff]
  constructor
  · rintro ⟨proposed, ⟨hValid, hFollows, hTarget, -⟩, rfl⟩
    have hSame : header.index = proposed.index := by
      apply UInt64.toNat_inj.1
      rw [hIndex, hFollows]
    rw [hSame]
    exact ⟨hValid, hTarget⟩
  · rintro ⟨hValid, hTarget⟩
    exact ⟨⟨proposedVersion, prev.id, FixedBytes.zero, header.timestamp, target, FixedBytes.zero,
      header.index⟩, ⟨hValid, hIndex, hTarget, rfl⟩, rfl⟩

end BlockHeader

end UtxoChain
