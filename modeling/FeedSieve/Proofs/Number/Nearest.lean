/-
The double nearest to a ratio.

It depends on the value of the ratio alone (`ofRatio_mul`). The exponent that
gives the mantissa its bits is the only one at which the value has that
magnitude (`leadingExponent_spec`), however the ratio is written, and a
mantissa is rounded off the value that is scaled by it. So a decimal may be
given one digit more and an exponent less (`ofDecimal_shift`).
-/
import Mathlib.Algebra.Order.Field.Power
import Mathlib.Data.Rat.Cast.Order
import Mathlib.Tactic.Ring
import FeedSieve.Number.Double

namespace FeedSieve.Number.Double

variable {num den k digits : Nat} {exponent : Int}

-- ============================================================= scaling

theorem scaled_mul (k num den : Nat) (exponent : Int) :
    scaled (k * num) (k * den) exponent
      = (k * (scaled num den exponent).1, k * (scaled num den exponent).2) := by
  unfold scaled
  split
  · rw [Nat.mul_assoc]
  · rw [Nat.mul_assoc]

theorem scaled_den_pos (hden : 0 < den) (exponent : Int) : 0 < (scaled num den exponent).2 := by
  unfold scaled
  split
  · exact Nat.mul_pos hden (Nat.pow_pos (by decide))
  · exact hden

/-- Scaling a ratio divides its value by a power of two. -/
theorem scaled_value (hden : 0 < den) (num : Nat) (exponent : Int) :
    ((scaled num den exponent).1 : ℚ) / (scaled num den exponent).2
      = num / den * 2 ^ (-exponent) := by
  have hpositive : (0 : ℚ) < den := Nat.cast_pos.mpr hden
  obtain ⟨n, rfl | rfl⟩ := Int.eq_nat_or_neg exponent
  · have hscaled : scaled num den n = (num, den * 2 ^ n) := by simp [scaled]
    rw [hscaled, zpow_neg, zpow_natCast]
    push_cast
    rw [← div_div, div_eq_mul_inv (_ / _)]
  · have hscaled : (scaled num den (-n)).1 = num * 2 ^ n ∧ (scaled num den (-n)).2 = den := by
      cases n with
      | zero => simp [scaled]
      | succ n =>
          have hbelow : ¬ (0 : Int) ≤ -((n + 1 : Nat) : Int) := by omega
          simp only [scaled, if_neg hbelow, Int.neg_neg, Int.toNat_natCast]
          exact ⟨rfl, trivial⟩
    rw [hscaled.1, hscaled.2, Int.neg_neg, zpow_natCast]
    push_cast
    rw [mul_div_right_comm]

/-- A ratio that is scaled has 53 bits at least where its value is that great. -/
theorem bits_scaled_iff (hden : 0 < den) (num : Nat) (exponent : Int) :
    mantissaEnd / 2 ≤ (scaled num den exponent).1 / (scaled num den exponent).2
      ↔ (2 : ℚ) ^ (52 + exponent) ≤ num / den := by
  have hbits : mantissaEnd / 2 = 2 ^ 52 := by decide
  have hpositive : 0 < (scaled num den exponent).2 := scaled_den_pos hden exponent
  have hpower : (0 : ℚ) < 2 ^ exponent := zpow_pos two_pos _
  rw [hbits, Nat.le_div_iff_mul_le hpositive, ← Nat.cast_le (α := ℚ), Nat.cast_mul,
    ← le_div_iff₀ (Nat.cast_pos.mpr hpositive), scaled_value hden, zpow_neg, ← div_eq_mul_inv,
    le_div_iff₀ hpower, zpow_add₀ two_ne_zero]
  norm_num

/-- Rounding does not see a common factor. -/
theorem roundDiv_mul (hk : 0 < k) (num den : Nat) :
    roundDiv (k * num) (k * den) = roundDiv num den := by
  unfold roundDiv
  rw [Nat.mul_div_mul_left _ _ hk, Nat.mul_mod_mul_left]
  have hless : k * den < 2 * (k * (num % den)) ↔ den < 2 * (num % den) := by
    rw [Nat.mul_left_comm, Nat.mul_lt_mul_left hk]
  have heq : 2 * (k * (num % den)) = k * den ↔ 2 * (num % den) = den := by
    rw [Nat.mul_left_comm, Nat.mul_right_inj (Nat.ne_of_gt hk)]
  simp only [hless, heq, beq_iff_eq, Bool.or_eq_true, Bool.and_eq_true, decide_eq_true_eq]

-- ============================================================ exponents

/-- The exponent that gives the mantissa its bits, however small it is. -/
def leadingExponent (num den : Nat) : Int :=
  let guess : Int := (Nat.log2 num : Int) - (Nat.log2 den : Int) - 52
  if (scaled num den guess).1 / (scaled num den guess).2 < mantissaEnd / 2 then guess - 1 else guess

theorem exponentFor_eq (num den : Nat) :
    exponentFor num den = max leastExponent (leadingExponent num den) := rfl

/-- The value of a ratio by its bits. -/
theorem leadingExponent_spec (hnum : num ≠ 0) (hden : den ≠ 0) :
    (2 : ℚ) ^ (52 + leadingExponent num den) ≤ num / den
      ∧ (num / den : ℚ) < 2 ^ (53 + leadingExponent num den) := by
  have hpositive : (0 : ℚ) < den := Nat.cast_pos.mpr (Nat.pos_of_ne_zero hden)
  have hnumLow : (2 : ℚ) ^ num.log2 ≤ num := mod_cast Nat.log2_self_le hnum
  have hnumHigh : (num : ℚ) < 2 ^ (num.log2 + 1) := mod_cast Nat.lt_log2_self
  have hdenLow : (2 : ℚ) ^ den.log2 ≤ den := mod_cast Nat.log2_self_le hden
  have hdenHigh : (den : ℚ) < 2 ^ (den.log2 + 1) := mod_cast Nat.lt_log2_self
  -- the guess is right or too great by one, since the lengths of the two numbers are known
  have hlower : (2 : ℚ) ^ ((num.log2 : Int) - (den.log2 + 1 : Nat)) ≤ num / den := by
    rw [zpow_sub₀ two_ne_zero, zpow_natCast, zpow_natCast]
    exact div_le_div₀ (Nat.cast_nonneg num) hnumLow hpositive hdenHigh.le
  have hupper : (num / den : ℚ) < 2 ^ ((num.log2 + 1 : Nat) - (den.log2 : Int)) := by
    rw [zpow_sub₀ two_ne_zero, zpow_natCast, zpow_natCast]
    exact div_lt_div₀ hnumHigh hdenLow (pow_nonneg zero_le_two _) (pow_pos two_pos _)
  have hbits := bits_scaled_iff (Nat.pos_of_ne_zero hden) num
    ((num.log2 : Int) - den.log2 - 52)
  unfold leadingExponent
  dsimp only
  split
  case isTrue hsmall =>
    have hnot := mt hbits.mpr (Nat.not_le.mpr hsmall)
    refine ⟨le_trans (le_of_eq ?_) hlower, lt_of_lt_of_eq (not_le.mp hnot) ?_⟩ <;> congr 1 <;>
      push_cast <;> ring
  case isFalse hgreat =>
    refine ⟨hbits.mp (Nat.not_lt.mp hgreat), lt_of_lt_of_eq hupper ?_⟩
    congr 1
    push_cast
    ring

/-- So it is determined by the value. -/
theorem leadingExponent_mul (hk : k ≠ 0) (hnum : num ≠ 0) (hden : den ≠ 0) :
    leadingExponent (k * num) (k * den) = leadingExponent num den := by
  have hvalue : ((k * num : Nat) : ℚ) / (k * den : Nat) = num / den := by
    push_cast
    exact mul_div_mul_left _ _ (Nat.cast_ne_zero.mpr hk)
  obtain ⟨hlow, hhigh⟩ := leadingExponent_spec hnum hden
  obtain ⟨hlow', hhigh'⟩ := leadingExponent_spec (Nat.mul_ne_zero hk hnum) (Nat.mul_ne_zero hk hden)
  rw [hvalue] at hlow' hhigh'
  have hless := (zpow_lt_zpow_iff_right₀ one_lt_two).mp (hlow.trans_lt hhigh')
  have hless' := (zpow_lt_zpow_iff_right₀ one_lt_two).mp (hlow'.trans_lt hhigh)
  omega

/-- The nearest double depends on the value of a ratio alone. -/
theorem ofRatio_mul (hk : k ≠ 0) (hden : den ≠ 0) (negative : Bool) (num : Nat) :
    ofRatio negative (k * num) (k * den) = ofRatio negative num den := by
  unfold ofRatio
  by_cases hnum : num = 0
  · rw [if_pos hnum, if_pos (by rw [hnum, Nat.mul_zero])]
  · rw [if_neg hnum, if_neg (Nat.mul_ne_zero hk hnum)]
    simp only [exponentFor_eq, leadingExponent_mul hk hnum hden, scaled_mul,
      roundDiv_mul (Nat.pos_of_ne_zero hk)]
    rfl

/-- A decimal that is neither too great nor too small is the nearest double to its value. -/
theorem ofDecimal_of_finite {negative : Bool}
    (hpositive : (ofDecimal negative digits exponent).isPositive)
    (hfinite : (ofDecimal negative digits exponent).isFinite) :
    digits ≠ 0 ∧ (digits.log2 : Int) * 3 / 10 + exponent ≤ 400
      ∧ -400 - (digits.log2 : Int) ≤ (digits.log2 : Int) * 3 / 10 + exponent := by
  unfold ofDecimal at hpositive hfinite
  dsimp only at hpositive hfinite
  split at hpositive
  · simp [isPositive, zero] at hpositive
  · rename_i hdigits
    rw [if_neg hdigits] at hfinite
    split at hfinite
    · cases hfinite
    · rename_i hgreat
      rw [if_neg hgreat] at hpositive
      split at hpositive
      · simp [isPositive, zero] at hpositive
      · rename_i hsmall
        exact ⟨hdigits, Int.not_lt.mp hgreat, Int.not_lt.mp hsmall⟩

/-- One digit more and an exponent less. -/
theorem ofDecimal_shift {negative : Bool} (hdigits : digits < 10)
    (hpositive : (ofDecimal negative digits exponent).isPositive)
    (hfinite : (ofDecimal negative digits exponent).isFinite) :
    ofDecimal negative (10 * digits) (exponent - 1) = ofDecimal negative digits exponent := by
  obtain ⟨hne, hgreat, hsmall⟩ := ofDecimal_of_finite hpositive hfinite
  have hlogs : ∀ d < 10, d ≠ 0 → d.log2 + 3 ≤ (10 * d).log2 ∧ (10 * d).log2 * 3 / 10 ≤ 1
      ∧ d.log2 * 3 / 10 = 0 := by decide
  obtain ⟨hmore, hone, hzero⟩ := hlogs digits hdigits hne
  have hgreat' : ¬ 400 < ((10 * digits).log2 : Int) * 3 / 10 + (exponent - 1) := by omega
  have hsmall' : ¬ ((10 * digits).log2 : Int) * 3 / 10 + (exponent - 1)
      < -400 - ((10 * digits).log2 : Int) := by omega
  unfold ofDecimal
  dsimp only
  rw [if_neg hne, if_neg (Int.not_lt.mpr hgreat), if_neg (Int.not_lt.mpr hsmall),
    if_neg (Nat.mul_ne_zero (by decide) hne), if_neg hgreat', if_neg hsmall']
  by_cases hwhole : 0 ≤ exponent - 1
  · -- the same whole number is written with a digit more
    obtain ⟨n, hn⟩ := Int.eq_ofNat_of_zero_le hwhole
    obtain rfl : exponent = (n + 1 : Nat) := by push_cast; omega
    rw [if_pos hwhole, if_pos (by omega)]
    congr 1
    have hpower : ((n + 1 : Nat) - 1 : Int).toNat = n := by omega
    rw [hpower, Int.toNat_natCast]
    show 10 * digits * 10 ^ n = digits * 10 ^ (n + 1)
    ring
  · rw [if_neg hwhole]
    have hfactor : ofRatio negative (10 * digits) (10 * 10 ^ (-exponent).toNat)
        = ofRatio negative digits (10 ^ (-exponent).toNat) :=
      ofRatio_mul (by decide) (Nat.pow_pos (by decide)).ne' negative digits
    have hpower : 10 ^ (-(exponent - 1)).toNat = 10 * 10 ^ (-exponent).toNat := by
      have hnext : (-(exponent - 1)).toNat = (-exponent).toNat + 1 := by omega
      rw [hnext, pow_succ, mul_comm]
    show ofRatio negative (10 * digits) (10 ^ (-(exponent - 1)).toNat) = _
    rw [hpower, hfactor]
    split
    · obtain rfl : exponent = 0 := by omega
      exact congrArg (ofRatio negative · 1) (Nat.mul_one digits).symm
    · rfl

end FeedSieve.Number.Double
