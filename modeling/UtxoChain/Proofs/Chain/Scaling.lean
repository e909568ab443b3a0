import Mathlib.Algebra.Order.Ring.Nat
import Mathlib.Tactic.SplitIfs
import UtxoChain.Error.Basic
import UtxoChain.Proofs.Chain.Retarget

/-!
# Scaling a target

Under parameters that can be used, a retarget makes of every target the number that unbounded
arithmetic gives, and fails only where this number has more than 256 bits
(`Params.retargetsExactly`). The number grows with the target and with the time, is the target itself
where the period took what it should, and is at most four times the target.

Nothing of this needs more than words: the times have at most 64 bits, and the product of a target and
a time at most 320 of the 512 in which it is divided (`newTargetInWords_eq`).
-/

namespace UtxoChain

variable {params : Params}

/-! ## The scaled number -/

namespace Params

/-- A higher target and a longer period make a number that is not lower. -/
theorem scaled_mono {target target' elapsed elapsed' : Nat} (hTarget : target ≤ target')
    (hElapsed : elapsed ≤ elapsed') : params.scaled target elapsed ≤ params.scaled target' elapsed' := by
  have hPeriod : clampPeriod params.exactInterval elapsed ≤
      clampPeriod params.exactInterval elapsed' := by
    unfold clampPeriod
    omega
  exact Nat.div_le_div_right (Nat.mul_le_mul hTarget hPeriod)

/-- A period that took what it should keeps the target. -/
theorem Valid.scaled_exactInterval (h : params.Valid) (target : Nat) :
    params.scaled target params.exactInterval = target := by
  have hPeriod : clampPeriod params.exactInterval params.exactInterval = params.exactInterval := by
    unfold clampPeriod
    omega
  unfold scaled
  rw [hPeriod, Nat.mul_div_cancel _ h.exactInterval_pos]

end Params

/-! ## The same in words -/

/-- A word, or the nearer of two bounds if it is not between them. -/
def clampWord (low high word : UInt64) : UInt64 :=
  if word < low then low else if high < word then high else word

/-- The target after a period, computed in words: the times in words of 64 bits, the product of the
target and the time, and its quotient, in words of 512. -/
def newTargetInWords (target : Hash256) (elapsed : UInt64) (params : Params) :
    Except RetargetFault Hash256 := do
  params.validate.mapError .params
  let interval := params.adjustmentInterval
  let counted := clampWord (interval / 2) (interval * 4) elapsed
  let product := BitVec.ofNat 512 target.toNat * BitVec.ofNat 512 counted.toNat
  let quotient := product / BitVec.ofNat 512 interval.toNat
  if quotient.toNat < 256 ^ 32 then return FixedBytes.ofNat quotient.toNat else throw .targetTooLarge

/-- Half a period is exact in its word. -/
theorem Params.Valid.toNat_half (h : params.Valid) :
    (params.adjustmentInterval / 2).toNat = params.exactInterval / 2 := by
  rw [UInt64.toNat_div, h.toNat_adjustmentInterval]
  rfl

/-- Four periods fit a word. -/
theorem Params.Valid.toNat_fourfold (h : params.Valid) :
    (params.adjustmentInterval * 4).toNat = params.exactInterval * 4 := by
  rw [UInt64.toNat_mul, h.toNat_adjustmentInterval]
  exact Nat.mod_eq_of_lt h.interval_lt

/-- A period counts as the same in words. -/
theorem Params.Valid.toNat_clampWord (h : params.Valid) (elapsed : UInt64) :
    (clampWord (params.adjustmentInterval / 2) (params.adjustmentInterval * 4) elapsed).toNat =
      clampPeriod params.exactInterval elapsed.toNat := by
  unfold clampWord clampPeriod
  simp only [UInt64.lt_iff_toNat_lt, h.toNat_half, h.toNat_fourfold]
  split_ifs with hShort hLong
  · rw [h.toNat_half]
    omega
  · rw [h.toNat_fourfold]
    omega
  · omega

/-- Where numbers and their product fit the words, so does the quotient, and both are exact. -/
theorem toNat_mul_div_of_lt {width left right divisor : Nat} (hLeft : left < 2 ^ width)
    (hRight : right < 2 ^ width) (hDivisor : divisor < 2 ^ width)
    (hProduct : left * right < 2 ^ width) :
    (BitVec.ofNat width left * BitVec.ofNat width right / BitVec.ofNat width divisor).toNat =
      left * right / divisor := by
  rw [BitVec.toNat_udiv, BitVec.toNat_mul, BitVec.toNat_ofNat, BitVec.toNat_ofNat,
    BitVec.toNat_ofNat, Nat.mod_eq_of_lt hLeft, Nat.mod_eq_of_lt hRight, Nat.mod_eq_of_lt hDivisor,
    Nat.mod_eq_of_lt hProduct]

/-- A number of some bits has no more than more bits. -/
theorem lt_two_pow_of_le {n width wider : Nat} (h : n < 2 ^ width) (hWider : width ≤ wider) :
    n < 2 ^ wider :=
  h.trans_le (Nat.pow_le_pow_right Nat.two_pos hWider)

/-- A product takes no more bits than its factors together. -/
theorem mul_lt_two_pow {left right leftWidth rightWidth : Nat} (hLeft : left < 2 ^ leftWidth)
    (hRight : right < 2 ^ rightWidth) : left * right < 2 ^ (leftWidth + rightWidth) := by
  rw [Nat.pow_add]
  exact Nat.mul_lt_mul'' hLeft hRight

/-- Words are enough to make a new target. -/
theorem newTargetInWords_eq (target : Hash256) (elapsed : UInt64) (params : Params) :
    newTargetInWords target elapsed params = newTarget target elapsed params := by
  cases hCheck : params.validate with
  | error fault =>
    rw [newTarget_of_validate_error hCheck]
    unfold newTargetInWords
    rw [hCheck]
    rfl
  | ok done =>
    have hValid := Params.validate_eq_ok_iff.1 hCheck
    have hFits := hValid.interval_lt
    have hTarget : target.toNat < 2 ^ 256 := target.toNat_lt
    have hPeriod := hValid.toNat_clampWord elapsed
    have hCounted := (clampPeriod_le params.exactInterval elapsed.toNat).trans_lt hFits
    have hInterval : params.exactInterval < 2 ^ 64 := by omega
    have hQuotient := toNat_mul_div_of_lt (lt_two_pow_of_le hTarget (by decide))
      (lt_two_pow_of_le hCounted (by decide)) (lt_two_pow_of_le hInterval (by decide))
      (lt_two_pow_of_le (mul_lt_two_pow hTarget hCounted) (show 256 + 64 ≤ 512 by decide))
    rw [hValid.newTarget_eq]
    unfold newTargetInWords Params.scaled
    simp only [hCheck, hPeriod, hValid.toNat_adjustmentInterval, hQuotient]
    rfl

/-! ## Retargeting -/

/-- Retargeting under some parameters is exact. It refuses parameters only for what their own check
says, and makes of every target the scaled number, if this has no more than 256 bits. -/
structure RetargetsExactly (params : Params) : Prop where
  /-- The parameters are at fault exactly where their check fails, and with its fault. -/
  config_iff : ∀ target elapsed fault,
    (newTarget target elapsed params).mapError RetargetFault.toError = .error (.config fault) ↔
      params.validate = .error fault
  /-- Otherwise the new target is the scaled number in 32 bytes, or too large for them. -/
  eq_scaled : params.validate = .ok () → ∀ target elapsed,
    (newTarget target elapsed params).mapError RetargetFault.toError =
      if params.scaled target.toNat elapsed.toNat < 2 ^ 256 then
        .ok (FixedBytes.ofNat (params.scaled target.toNat elapsed.toNat))
      else .error (.insufficientPrecision .target)
  /-- The period is not zero, its word is exact, and four times the period is a word. -/
  interval_fits : params.validate = .ok () →
    0 < params.exactInterval ∧ params.adjustmentInterval.toNat = params.exactInterval ∧
      params.exactInterval * 4 < 2 ^ 64
  /-- The bounds of the time do not cross. -/
  bounds_ordered : params.validate = .ok () →
    params.adjustmentInterval / 2 ≤ params.adjustmentInterval * 4
  /-- Words of 64 and of 512 bits give the same. -/
  inWords : ∀ target elapsed,
    newTargetInWords target elapsed params = newTarget target elapsed params
  /-- A target that is not higher and a time that is not longer make a target that is not higher. -/
  mono : ∀ target target' elapsed elapsed' next', target.toNat ≤ target'.toNat →
    elapsed ≤ elapsed' → newTarget target' elapsed' params = .ok next' →
      ∃ next, newTarget target elapsed params = .ok next ∧ next.toNat ≤ next'.toNat
  /-- A period that took what it should keeps the target. -/
  onTime : params.validate = .ok () → ∀ target elapsed, elapsed.toNat = params.exactInterval →
    newTarget target elapsed params = .ok target
  /-- No period makes more than four times of a target. -/
  le_fourfold : ∀ target elapsed next, newTarget target elapsed params = .ok next →
    next.toNat ≤ 4 * target.toNat

/-- The error of a failed retarget names the parameters exactly where their check fails. -/
theorem newTarget_eq_config_iff {target : Hash256} {elapsed : UInt64} {fault : ParamsFault} :
    (newTarget target elapsed params).mapError RetargetFault.toError = .error (.config fault) ↔
      params.validate = .error fault := by
  cases hCheck : params.validate with
  | error found =>
    rw [newTarget_of_validate_error hCheck]
    simp [Except.mapError, RetargetFault.toError]
  | ok done =>
    rw [(Params.validate_eq_ok_iff.1 hCheck).newTarget_eq]
    split_ifs <;> simp [Except.mapError, RetargetFault.toError]

/-- A higher target and a longer period make a higher target, and if they make one at all, so do the
lower and the shorter one. -/
theorem exists_newTarget_le {target target' next' : Hash256} {elapsed elapsed' : UInt64}
    (hTarget : target.toNat ≤ target'.toNat) (hElapsed : elapsed ≤ elapsed')
    (h : newTarget target' elapsed' params = .ok next') :
    ∃ next, newTarget target elapsed params = .ok next ∧ next.toNat ≤ next'.toNat := by
  obtain ⟨hValid, hNext⟩ := newTarget_eq_ok_iff.1 h
  have hLe : params.scaled target.toNat elapsed.toNat ≤ next'.toNat := by
    rw [hNext]
    exact Params.scaled_mono hTarget hElapsed
  have hNumber : (FixedBytes.ofNat (params.scaled target.toNat elapsed.toNat) : Hash256).toNat =
      params.scaled target.toNat elapsed.toNat :=
    FixedBytes.toNat_ofNat_of_lt (hLe.trans_lt next'.toNat_lt)
  refine ⟨_, newTarget_eq_ok_iff.2 ⟨hValid, hNumber⟩, ?_⟩
  rw [hNumber]
  exact hLe

/-- Retargeting is exact, whatever the parameters. -/
theorem Params.retargetsExactly (params : Params) : RetargetsExactly params where
  config_iff _ _ _ := newTarget_eq_config_iff
  eq_scaled hCheck target elapsed := by
    have hPower : (2 : Nat) ^ 256 = 256 ^ 32 := rfl
    rw [(Params.validate_eq_ok_iff.1 hCheck).newTarget_eq, hPower]
    split_ifs <;> rfl
  interval_fits hCheck := by
    have hValid := Params.validate_eq_ok_iff.1 hCheck
    exact ⟨hValid.exactInterval_pos, hValid.toNat_adjustmentInterval, hValid.interval_lt⟩
  bounds_ordered hCheck := by
    have hValid := Params.validate_eq_ok_iff.1 hCheck
    rw [UInt64.le_iff_toNat_le, hValid.toNat_half, hValid.toNat_fourfold]
    omega
  inWords target elapsed := newTargetInWords_eq target elapsed params
  mono _ _ _ _ _ hTarget hElapsed h := exists_newTarget_le hTarget hElapsed h
  onTime hCheck target elapsed hElapsed := by
    have hValid := Params.validate_eq_ok_iff.1 hCheck
    refine newTarget_eq_ok_iff.2 ⟨hValid, ?_⟩
    rw [hElapsed, hValid.scaled_exactInterval]
  le_fourfold _ _ _ h := (newTarget_between h).2

namespace Sample

/-- The largest target. -/
def largestTarget : Hash256 := FixedBytes.ofNat (256 ^ 32 - 1)

/-- On the network a period that took what it should keeps the largest target, and a second more makes
it too large. -/
theorem newTarget_largestTarget :
    Params.network.validate = .ok () ∧
      newTarget largestTarget 1209600 Params.network = .ok largestTarget ∧
      (newTarget largestTarget 1209601 Params.network).mapError RetargetFault.toError =
        .error (.insufficientPrecision .target) := by
  have hCheck : Params.network.validate = .ok () := by decide
  have hLarge : ¬ Params.network.scaled largestTarget.toNat (1209601 : UInt64).toNat < 2 ^ 256 := by
    decide +kernel
  have hExact := Params.retargetsExactly Params.network
  refine ⟨hCheck, hExact.onTime hCheck _ _ rfl, ?_⟩
  rw [hExact.eq_scaled hCheck, if_neg hLarge]

end Sample

end UtxoChain
