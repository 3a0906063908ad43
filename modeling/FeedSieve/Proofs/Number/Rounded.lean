/-
How far the nearest double is from a ratio.

A mantissa is rounded off by a half at most. It has 53 bits, unless the ratio
is too small for that, so the double is off by no more than the 2^53th part
of the ratio (`near_ofRatio`).

There is no such double if the ratio is too great, which it is from half a
step beyond the greatest finite double on (`ofRatio_eq_infinite_iff`): the
greatest mantissa is odd, so a ratio just half way is rounded away from it.
-/
import Mathlib.Tactic.FieldSimp
import Mathlib.Tactic.Linarith
import FeedSieve.Proofs.Number.Nearest

namespace FeedSieve.Number.Double

variable {num den : Nat} {negative : Bool}

-- ============================================================== values

/-- The number that a finite double is. -/
def value : Double → ℚ
  | finite negative mantissa exponent =>
      (if negative then -1 else 1) * (mantissa * 2 ^ exponent)
  | _ => 0

-- ============================================================ rounding

/-- Rounding is off by a half at most. -/
theorem roundDiv_bounds (hden : 0 < den) (num : Nat) :
    2 * (roundDiv num den * den) ≤ 2 * num + den
      ∧ 2 * num ≤ 2 * (roundDiv num den * den) + den := by
  have hwhole := Nat.div_add_mod num den
  have hrest := Nat.mod_lt num hden
  rw [Nat.mul_comm] at hwhole
  unfold roundDiv
  dsimp only
  split
  case isTrue hup =>
    have hhalf : den ≤ 2 * (num % den) := by
      simp only [Bool.or_eq_true, Bool.and_eq_true, decide_eq_true_eq, beq_iff_eq] at hup
      omega
    rw [Nat.succ_mul (num / den)]
    omega
  case isFalse hdown =>
    have hhalf : 2 * (num % den) ≤ den := by
      simp only [Bool.or_eq_true, decide_eq_true_eq, not_or] at hdown
      omega
    omega

/-- It does not go beyond a number that the ratio is below. -/
theorem roundDiv_le (hden : 0 < den) {k : Nat} (h : num < k * den) : roundDiv num den ≤ k := by
  by_contra hmore
  have hhigh := (roundDiv_bounds hden num).1
  have hfar : (k + 1) * den ≤ roundDiv num den * den := Nat.mul_le_mul_right den (by omega)
  rw [Nat.succ_mul k] at hfar
  omega

/-- An even number is reached from half way on. -/
theorem le_roundDiv_iff (hden : 0 < den) {k : Nat} (heven : k % 2 = 0) (hpos : 0 < k) (num : Nat) :
    k ≤ roundDiv num den ↔ 2 * (k * den) ≤ 2 * num + den := by
  have hwhole := Nat.div_add_mod num den
  have hrest := Nat.mod_lt num hden
  rw [Nat.mul_comm] at hwhole
  obtain ⟨below, rfl⟩ : ∃ below, k = below + 1 := ⟨k - 1, by omega⟩
  rw [Nat.succ_mul below]
  rcases Nat.lt_trichotomy (num / den) below with hless | hsame | hmore
  · -- the whole part is too small, even if it is rounded up
    have hnot : ¬ below + 1 ≤ roundDiv num den := by
      unfold roundDiv
      dsimp only
      split <;> omega
    have hfar : (num / den + 1) * den ≤ below * den := Nat.mul_le_mul_right den hless
    rw [Nat.succ_mul (num / den)] at hfar
    refine iff_of_false hnot ?_
    omega
  · -- the whole part is odd, so a half is rounded up
    have hodd : num / den % 2 = 1 := by omega
    unfold roundDiv
    dsimp only
    rw [hodd, ← hsame]
    split
    case isTrue hup =>
      simp only [Bool.or_eq_true, Bool.and_eq_true, decide_eq_true_eq, beq_iff_eq] at hup
      refine iff_of_true (Nat.le_refl _) ?_
      omega
    case isFalse hdown =>
      simp only [Bool.or_eq_true, Bool.and_eq_true, decide_eq_true_eq, beq_iff_eq, and_true,
        not_or] at hdown
      refine iff_of_false (Nat.not_succ_le_self _) ?_
      omega
  · have hreached : below + 1 ≤ roundDiv num den := by
      unfold roundDiv
      dsimp only
      split <;> omega
    have hnear : (below + 1) * den ≤ num / den * den := Nat.mul_le_mul_right den hmore
    rw [Nat.succ_mul below] at hnear
    refine iff_of_true hreached ?_
    omega

-- =========================================================== mantissas

/-- The mantissa of a ratio before it is known to have 53 bits. -/
def mantissaFor (num den : Nat) : Nat :=
  roundDiv (scaled num den (exponentFor num den)).1 (scaled num den (exponentFor num den)).2

/-- A mantissa is rounded off by a half, and the ratio by that much scaled. -/
theorem abs_mantissaFor_sub_le (hden : 0 < den) (num : Nat) :
    |(mantissaFor num den : ℚ) * 2 ^ exponentFor num den - num / den|
      ≤ 2 ^ exponentFor num den / 2 := by
  have hvalue := scaled_value hden num (exponentFor num den)
  have hpos : 0 < (scaled num den (exponentFor num den)).2 := scaled_den_pos hden _
  obtain ⟨hhigh, hlow⟩ := roundDiv_bounds hpos (scaled num den (exponentFor num den)).1
  unfold mantissaFor
  generalize exponentFor num den = exponent at hvalue hpos hhigh hlow ⊢
  generalize roundDiv (scaled num den exponent).1 (scaled num den exponent).2 = mantissa
    at hhigh hlow ⊢
  have hpower : (0 : ℚ) < 2 ^ exponent := zpow_pos two_pos _
  have hpos' : (0 : ℚ) < (scaled num den exponent).2 := Nat.cast_pos.mpr hpos
  have hhalf : |(mantissa : ℚ) - num / den * 2 ^ (-exponent)| ≤ 1 / 2 := by
    have hhigh' : 2 * ((mantissa : ℚ) * (scaled num den exponent).2)
        ≤ 2 * (scaled num den exponent).1 + (scaled num den exponent).2 := mod_cast hhigh
    have hlow' : 2 * ((scaled num den exponent).1 : ℚ)
        ≤ 2 * (mantissa * (scaled num den exponent).2) + (scaled num den exponent).2 :=
      mod_cast hlow
    rw [← hvalue, abs_le]
    constructor
    · rw [neg_le_sub_iff_le_add, div_le_iff₀ hpos']
      linarith
    · rw [sub_le_comm, le_div_iff₀ hpos']
      linarith
  calc |(mantissa : ℚ) * 2 ^ exponent - num / den|
      = |((mantissa : ℚ) - num / den * 2 ^ (-exponent)) * 2 ^ exponent| := by
        rw [sub_mul, mul_assoc, ← zpow_add₀ two_ne_zero, neg_add_cancel, zpow_zero, mul_one]
    _ = |(mantissa : ℚ) - num / den * 2 ^ (-exponent)| * 2 ^ exponent := by
        rw [abs_mul, abs_of_pos hpower]
    _ ≤ 1 / 2 * 2 ^ exponent := mul_le_mul_of_nonneg_right hhalf hpower.le
    _ = 2 ^ exponent / 2 := by ring

/-- The nearest double by its mantissa. -/
theorem ofRatio_eq (hnum : num ≠ 0) (negative : Bool) (den : Nat) :
    ofRatio negative num den =
      if mantissaFor num den = mantissaEnd then
        if greatestExponent < exponentFor num den + 1 then infinite negative
        else finite negative (mantissaEnd / 2) (exponentFor num den + 1)
      else if greatestExponent < exponentFor num den then infinite negative
      else finite negative (mantissaFor num den) (exponentFor num den) := by
  unfold ofRatio mantissaFor
  rw [if_neg hnum]
  dsimp only
  split <;> rfl

/-- Unless it is infinite it has the value of the mantissa. -/
theorem value_ofRatio (hnum : num ≠ 0) (hfinite : ofRatio false num den ≠ infinite false) :
    (ofRatio false num den).value = mantissaFor num den * 2 ^ exponentFor num den := by
  rw [ofRatio_eq hnum] at hfinite ⊢
  by_cases hend : mantissaFor num den = mantissaEnd
  · rw [if_pos hend] at hfinite ⊢
    by_cases hgreat : greatestExponent < exponentFor num den + 1
    · exact absurd (if_pos hgreat) hfinite
    · have hdouble : ((mantissaEnd : Nat) : ℚ) = (mantissaEnd / 2 : Nat) * 2 := by
        norm_num [mantissaEnd]
      rw [if_neg hgreat, hend, hdouble, value, zpow_add_one₀ two_ne_zero]
      simp only [Bool.false_eq_true, if_false]
      ring
  · rw [if_neg hend] at hfinite ⊢
    by_cases hgreat : greatestExponent < exponentFor num den
    · exact absurd (if_pos hgreat) hfinite
    · rw [if_neg hgreat, value]
      simp only [Bool.false_eq_true, if_false, one_mul]

-- ============================================================ accuracy

/-- The nearest double to a ratio that is not too small is off by no more than
the 2^53th part. -/
theorem near_ofRatio (hnum : num ≠ 0) (hden : den ≠ 0)
    (hnormal : (2 : ℚ) ^ (-1022 : Int) ≤ num / den)
    (hfinite : ofRatio false num den ≠ infinite false) :
    |(ofRatio false num den).value - num / den| ≤ num / den / 2 ^ 53 := by
  obtain ⟨hlow, hhigh⟩ := leadingExponent_spec hnum hden
  have hleast : leastExponent ≤ leadingExponent num den := by
    have hless := (zpow_lt_zpow_iff_right₀ one_lt_two).mp (hnormal.trans_lt hhigh)
    unfold leastExponent
    omega
  have hexponent : exponentFor num den = leadingExponent num den := by
    rw [exponentFor_eq, max_eq_right hleast]
  rw [value_ofRatio hnum hfinite]
  refine (abs_mantissaFor_sub_le (Nat.pos_of_ne_zero hden) num).trans ?_
  rw [hexponent, le_div_iff₀ (by positivity)]
  calc (2 : ℚ) ^ leadingExponent num den / 2 * 2 ^ 53
      = 2 ^ (52 : Int) * 2 ^ leadingExponent num den := by norm_num; ring
    _ = 2 ^ (52 + leadingExponent num den) := (zpow_add₀ two_ne_zero _ _).symm
    _ ≤ num / den := hlow

/-- The first number that is too great: half a step beyond the greatest finite
double, which is `(mantissaEnd - 1) * 2 ^ 971`. -/
def overflow : Nat := (2 * mantissaEnd - 1) * 2 ^ 970

theorem overflow_pos : 0 < overflow := Nat.mul_pos (by decide) (pow_pos two_pos 970)

/-- It is half way to a mantissa of one bit more. -/
private theorem overflow_eq : (overflow : ℚ) = (2 * mantissaEnd - 1) / 2 * 2 ^ greatestExponent := by
  have hcast : ((2 * mantissaEnd - 1 : Nat) : ℚ) = 2 * mantissaEnd - 1 := by
    rw [Nat.cast_sub (by decide)]
    push_cast
    rfl
  have hpower : (2 : ℚ) ^ greatestExponent = 2 ^ 970 * 2 := by
    rw [← pow_succ]
    exact zpow_natCast 2 971
  rw [overflow, Nat.cast_mul, hcast, Nat.cast_pow, Nat.cast_ofNat, hpower]
  generalize (2 : ℚ) ^ 970 = step
  ring

/-- With the greatest exponent the mantissa has a bit more if the ratio is too
great. -/
private theorem mantissaFor_eq_end_iff (hnum : num ≠ 0) (hden : den ≠ 0)
    (hleading : leadingExponent num den = greatestExponent) :
    mantissaFor num den = mantissaEnd ↔ (overflow : ℚ) ≤ num / den := by
  have hexponent : exponentFor num den = greatestExponent := by
    rw [exponentFor_eq, hleading]
    decide
  have hdenPos := Nat.pos_of_ne_zero hden
  have hpos : 0 < (scaled num den greatestExponent).2 := scaled_den_pos hdenPos _
  have hpos' : (0 : ℚ) < (scaled num den greatestExponent).2 := Nat.cast_pos.mpr hpos
  have hpower : (0 : ℚ) < 2 ^ greatestExponent := zpow_pos two_pos _
  have hvalue : ((scaled num den greatestExponent).1 : ℚ) / (scaled num den greatestExponent).2
      = num / den / 2 ^ greatestExponent := by
    rw [scaled_value hdenPos, zpow_neg, div_eq_mul_inv (_ / _)]
  have hhigh := (leadingExponent_spec hnum hden).2
  rw [hleading, zpow_add₀ two_ne_zero, ← div_lt_iff₀ hpower, ← hvalue, div_lt_iff₀ hpos'] at hhigh
  have hmost : mantissaFor num den ≤ mantissaEnd := by
    unfold mantissaFor
    rw [hexponent]
    refine roundDiv_le hpos ?_
    have hend : ((mantissaEnd : Nat) : ℚ) = 2 ^ (53 : Int) := by norm_num [mantissaEnd]
    rw [← Nat.cast_lt (α := ℚ), Nat.cast_mul, hend]
    exact hhigh
  rw [← hmost.ge_iff_eq, mantissaFor, hexponent,
    le_roundDiv_iff hpos (by decide) (by decide), overflow_eq, ← le_div_iff₀ hpower, ← hvalue,
    le_div_iff₀ hpos', ← Nat.cast_le (α := ℚ)]
  push_cast
  constructor <;> intro h <;> linarith

/-- No double is near to a ratio that is so great. -/
theorem ofRatio_eq_infinite_iff (hnum : num ≠ 0) (hden : den ≠ 0) :
    ofRatio false num den = infinite false ↔ (overflow : ℚ) ≤ num / den := by
  obtain ⟨hlow, hhigh⟩ := leadingExponent_spec hnum hden
  have hpower : (0 : ℚ) < 2 ^ greatestExponent := zpow_pos two_pos _
  rw [ofRatio_eq hnum]
  rcases lt_trichotomy (leadingExponent num den) greatestExponent with hless | hsame | hmore
  · -- there is room even for one bit more
    have hexponent : exponentFor num den < greatestExponent := by
      rw [exponentFor_eq]
      exact max_lt (by decide) hless
    have hbelow : (num / den : ℚ) < overflow := by
      refine hhigh.trans_le ?_
      rw [overflow_eq]
      calc (2 : ℚ) ^ (53 + leadingExponent num den)
          ≤ 2 ^ (52 + greatestExponent) := zpow_le_zpow_right₀ one_le_two (by omega)
        _ = 2 ^ (52 : Int) * 2 ^ greatestExponent := zpow_add₀ two_ne_zero _ _
        _ ≤ (2 * mantissaEnd - 1) / 2 * 2 ^ greatestExponent :=
          mul_le_mul_of_nonneg_right (by norm_num [mantissaEnd]) hpower.le
    rw [if_neg (show ¬ greatestExponent < exponentFor num den + 1 by omega),
      if_neg (show ¬ greatestExponent < exponentFor num den by omega)]
    refine iff_of_false (fun h => ?_) (not_le.mpr hbelow)
    split at h <;> cases h
  · have hexponent : exponentFor num den = greatestExponent := by
      rw [exponentFor_eq, hsame]
      decide
    rw [hexponent, if_pos (Int.lt_succ _), if_neg (lt_irrefl _),
      ← mantissaFor_eq_end_iff hnum hden hsame]
    split
    case isTrue hend => exact iff_of_true rfl hend
    case isFalse hend => exact iff_of_false (by simp) hend
  · have hexponent : greatestExponent < exponentFor num den := by
      rw [exponentFor_eq]
      exact lt_max_of_lt_right hmore
    have habove : (overflow : ℚ) ≤ num / den := by
      refine le_trans ?_ hlow
      rw [overflow_eq]
      calc (2 * mantissaEnd - 1) / 2 * (2 : ℚ) ^ greatestExponent
          ≤ 2 ^ (53 : Int) * 2 ^ greatestExponent :=
          mul_le_mul_of_nonneg_right (by norm_num [mantissaEnd]) hpower.le
        _ = 2 ^ (53 + greatestExponent) := (zpow_add₀ two_ne_zero _ _).symm
        _ ≤ 2 ^ (52 + leadingExponent num den) := zpow_le_zpow_right₀ one_le_two (by omega)
    rw [if_pos (show greatestExponent < exponentFor num den + 1 by omega), if_pos hexponent]
    refine iff_of_true ?_ habove
    split <;> rfl

/-- If there is none the ratio is beyond all doubles of its sign. -/
theorem negative_of_infinite {negative' : Bool} (h : ofRatio negative num den = infinite negative') :
    negative' = negative := by
  by_cases hnum : num = 0
  · rw [hnum, ofRatio, if_pos rfl] at h
    cases h
  · rw [ofRatio_eq hnum] at h
    split_ifs at h <;> exact (infinite.inj h).symm

end FeedSieve.Number.Double
