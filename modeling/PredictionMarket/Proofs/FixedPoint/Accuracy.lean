import PredictionMarket.Proofs.FixedPoint.ExpError
import PredictionMarket.Proofs.FixedPoint.LnError

/-!
# The accuracy of exponential and logarithm

Exponential and logarithm are hardly more than a unit of the ninth place away from those of
the reals, wherever they do not saturate, vanish or fail.

The unit is what the last rounding may take.  What comes on top of it differs.  The
exponential squares its series and so keeps a relative error (`exp_accurate`), which is seen
for large arguments only.  The logarithm doubles its series back at most four times, so its
error is absolute and the same from one unit to the greatest integer of 128 bits
(`ln_accurate`).
-/

namespace PredictionMarket.FixedPoint

/-- From the negative limit to the limit the exponential is at most `1.001` units off, and
`10 ^ -12` of what it should be. -/
theorem exp_accurate {x : Int} (hlow : -expLimit ≤ x) (hhigh : x ≤ expLimit) :
    ∃ r, exp x = .ok r ∧
      |(r : ℝ) - 10 ^ 9 * Real.exp (x / 10 ^ 9)| ≤
        1 + 1 / 10 ^ 3 + 10 ^ 9 * Real.exp (x / 10 ^ 9) / 10 ^ 12 := by
  refine ⟨expValue x, exp_eq_ok x, ?_⟩
  have hpos : 0 < 10 ^ 9 * Real.exp (x / 10 ^ 9) := by positivity
  rcases le_total 0 x with h0 | h0
  · have hbelow := lt_expValue h0 hhigh
    have habove := expValue_le h0 hhigh
    rw [abs_le]
    constructor <;> linarith
  · have hnear := abs_expValue_sub_lt hlow h0
    linarith

/-- At the limit itself the relative error shows. -/
theorem exp_accurate_limit :
    exp expLimit = .ok 485165195409790097 ∧
      |(485165195409790097 : ℝ) - 10 ^ 9 * Real.exp 20| ≤
        1 + 1 / 10 ^ 3 + 10 ^ 9 * Real.exp 20 / 10 ^ 12 := by
  have hvalue : exp expLimit = .ok 485165195409790097 := by cbv
  obtain ⟨r, hr, hnear⟩ := exp_accurate (x := expLimit) (by decide) le_rfl
  obtain rfl := Except.ok.inj (hvalue.symm.trans hr)
  have harg : ((expLimit : Int) : ℝ) / 10 ^ 9 = 20 := by norm_num [expLimit, one]
  rw [harg] at hnear
  exact ⟨hvalue, by exact_mod_cast hnear⟩

/-- On the positive integers of 128 bits the logarithm is less than `1.00001` units off. -/
theorem ln_accurate {x : Int} (h1 : 1 ≤ x) (h : x ≤ Width.u128.greatest) :
    ∃ r, ln x = .ok r ∧ |(r : ℝ) - 10 ^ 9 * Real.log (x / 10 ^ 9)| < 1 + 1 / 10 ^ 5 := by
  obtain ⟨n, hn, hnear⟩ := ln_spec h1 h
  refine ⟨n.tdiv one, hn, ?_⟩
  have hround := abs_tdiv_sub_lt n FixedPoint.one_pos
  rw [cast_one] at hround
  have hscaled : |(n : ℝ) / 10 ^ 9 - 10 ^ 9 * Real.log (x / 10 ^ 9)| ≤ 2 / 10 ^ 6 := by
    have hsplit : (n : ℝ) / 10 ^ 9 - 10 ^ 9 * Real.log (x / 10 ^ 9) =
        (n - 10 ^ 18 * Real.log (x / 10 ^ 9)) / 10 ^ 9 := by ring
    rw [hsplit, abs_div, abs_of_pos (by norm_num : (0 : ℝ) < 10 ^ 9), div_le_iff₀ (by norm_num)]
    linarith
  calc |((n.tdiv one : Int) : ℝ) - 10 ^ 9 * Real.log (x / 10 ^ 9)|
      ≤ |((n.tdiv one : Int) : ℝ) - n / 10 ^ 9| +
          |(n : ℝ) / 10 ^ 9 - 10 ^ 9 * Real.log (x / 10 ^ 9)| := abs_sub_le _ _ _
    _ < 1 + 1 / 10 ^ 5 := by linarith

/-- At the greatest integer of 128 bits the reduction divides by Euler's number most often. -/
theorem ln_accurate_greatest :
    ln Width.u128.greatest = .ok 67999573274 ∧
      |(67999573274 : ℝ) - 10 ^ 9 * Real.log ((Width.u128.greatest : Int) / 10 ^ 9)| <
        1 + 1 / 10 ^ 5 := by
  have hvalue : ln Width.u128.greatest = .ok 67999573274 := by cbv
  obtain ⟨r, hr, hnear⟩ := ln_accurate (x := Width.u128.greatest) (by decide) le_rfl
  obtain rfl := Except.ok.inj (hvalue.symm.trans hr)
  exact ⟨hvalue, by exact_mod_cast hnear⟩

end PredictionMarket.FixedPoint
