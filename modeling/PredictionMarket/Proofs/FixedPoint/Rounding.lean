import Mathlib.Analysis.Complex.ExponentialBounds
import PredictionMarket.FixedPoint.Basic
import PredictionMarket.Proofs.SquareRoot

/-!
# Rounding, seen from the reals

The arithmetic of a market divides integers and drops what is left over.  The
lemmas here say how far such a quotient is from the real one: less than one unit
toward zero (`abs_tdiv_sub_lt`), and for a number that is not negative less than
one unit down (`tdiv_le`, `lt_tdiv`, `ediv_le`, `lt_ediv`).

`fineLog` is the exact logarithm in the units of the series.  Rounding its
argument down moves it by about `10 ^ 18` over the argument
(`fineLog_le_of_floor`), so at most by one unit for an argument from one on.
-/

namespace PredictionMarket.FixedPoint

/-! ## Quotients -/

theorem cast_one : ((one : Int) : ℝ) = 10 ^ 9 := by norm_num [one]

theorem cast_fineOne : ((fineOne : Int) : ℝ) = 10 ^ 18 := by norm_num [fineOne]

protected theorem one_pos : 0 < one := by decide

theorem fineOne_pos : 0 < fineOne := by decide

/-- A quotient rounded toward zero is less than one off. -/
theorem abs_tdiv_sub_lt (a : Int) {b : Int} (hb : 0 < b) :
    |((a.tdiv b : Int) : ℝ) - a / b| < 1 := by
  have hbr : (0 : ℝ) < b := by exact_mod_cast hb
  have hsplit : (a : ℝ) = b * (a.tdiv b : Int) + (a.tmod b : Int) := by
    exact_mod_cast (Int.mul_tdiv_add_tmod a b).symm
  have hlow : -(b : ℝ) < (a.tmod b : Int) := by exact_mod_cast Int.lt_tmod_of_pos a hb
  have hhigh : ((a.tmod b : Int) : ℝ) < b := by exact_mod_cast Int.tmod_lt_of_pos a hb
  have hdiff : ((a.tdiv b : Int) : ℝ) - a / b = -((a.tmod b : Int) : ℝ) / b := by
    rw [hsplit]
    field_simp
    ring
  rw [hdiff, abs_lt, lt_div_iff₀ hbr, div_lt_iff₀ hbr]
  constructor <;> linarith

/-- A quotient is rounded down. -/
theorem ediv_le (a : Int) {b : Int} (hb : 0 < b) : ((a / b : Int) : ℝ) ≤ a / b := by
  have hbr : (0 : ℝ) < b := by exact_mod_cast hb
  rw [le_div_iff₀ hbr]
  exact_mod_cast Int.ediv_mul_le a (ne_of_gt hb)

/-- A quotient is rounded down by less than one. -/
theorem lt_ediv (a : Int) {b : Int} (hb : 0 < b) : (a : ℝ) / b < ((a / b : Int) : ℝ) + 1 := by
  have hbr : (0 : ℝ) < b := by exact_mod_cast hb
  rw [div_lt_iff₀ hbr]
  exact_mod_cast Int.lt_ediv_add_one_mul_self a hb

theorem tdiv_le {a b : Int} (ha : 0 ≤ a) (hb : 0 < b) : ((a.tdiv b : Int) : ℝ) ≤ a / b := by
  rw [Int.tdiv_eq_ediv_of_nonneg ha]
  exact ediv_le a hb

theorem lt_tdiv {a b : Int} (ha : 0 ≤ a) (hb : 0 < b) :
    (a : ℝ) / b < ((a.tdiv b : Int) : ℝ) + 1 := by
  rw [Int.tdiv_eq_ediv_of_nonneg ha]
  exact lt_ediv a hb

/-- Two quotients toward zero in a row are one by the product. -/
theorem tdiv_tdiv (a : Int) {b c : Int} (hb : 0 ≤ b) :
    (a.tdiv b).tdiv c = a.tdiv (b * c) := by
  obtain ha | ha := le_total 0 a
  · rw [Int.tdiv_eq_ediv_of_nonneg ha, Int.tdiv_eq_ediv_of_nonneg ha,
      Int.tdiv_eq_ediv_of_nonneg (Int.ediv_nonneg ha hb), Int.ediv_ediv_of_nonneg hb]
  · obtain ⟨d, rfl⟩ : ∃ d, a = -d := ⟨-a, (neg_neg a).symm⟩
    have hd : 0 ≤ d := by omega
    rw [Int.neg_tdiv, Int.neg_tdiv, Int.neg_tdiv, Int.tdiv_eq_ediv_of_nonneg hd,
      Int.tdiv_eq_ediv_of_nonneg hd, Int.tdiv_eq_ediv_of_nonneg (Int.ediv_nonneg hd hb),
      Int.ediv_ediv_of_nonneg hb]

/-- The error of a partial sum is that of its next term and that of the sum from there
on. -/
theorem abs_sub_rest_le {s sum t : Int} {term rest rest' a b : ℝ} (hrest : rest = term + rest')
    (hs : |(s : ℝ) - (sum + t : Int) - rest'| ≤ a) (ht : |(t : ℝ) - term| ≤ b) :
    |(s : ℝ) - sum - rest| ≤ a + b := by
  have hsplit : (s : ℝ) - sum - rest = (s - (sum + t : Int) - rest') + (t - term) := by
    rw [hrest]
    push_cast
    ring
  rw [hsplit]
  exact (abs_add_le _ _).trans (add_le_add hs ht)

/-- A number of up to thirty-eight digits fits the widest integers. -/
theorem i128_fits_of_abs_le {v : Int} (h : |(v : ℝ)| ≤ 10 ^ 38) : Width.i128.Fits v := by
  have hv : |v| ≤ 10 ^ 38 := by exact_mod_cast h
  obtain ⟨hlow, hhigh⟩ := abs_le.mp hv
  constructor
  · simp only [Width.least]
    omega
  · simp only [Width.greatest]
    omega

/-! ## The exact logarithm -/

/-- The logarithm of a number with eighteen places, with eighteen places and
without rounding. -/
noncomputable def fineLog (v : ℝ) : ℝ := 10 ^ 18 * Real.log (v / 10 ^ 18)

theorem fineLog_fineOne : fineLog (10 ^ 18) = 0 := by simp [fineLog]

theorem fineLog_mono {v w : ℝ} (hv : 0 < v) (h : v ≤ w) : fineLog v ≤ fineLog w := by
  have hle : v / 10 ^ 18 ≤ w / 10 ^ 18 := by gcongr
  have hlog := Real.log_le_log (by positivity) hle
  unfold fineLog
  linarith

/-- The logarithm turns a product of numbers with eighteen places into a sum. -/
theorem fineLog_mul {v w : ℝ} (hv : 0 < v) (hw : 0 < w) :
    fineLog (v * w / 10 ^ 18) = fineLog v + fineLog w := by
  have hsplit : v * w / 10 ^ 18 / 10 ^ 18 = v / 10 ^ 18 * (w / 10 ^ 18) := by ring
  unfold fineLog
  rw [hsplit, Real.log_mul (by positivity) (by positivity)]
  ring

/-- The logarithm turns a quotient of numbers with eighteen places into a
difference. -/
theorem fineLog_div {v w : ℝ} (hv : 0 < v) (hw : 0 < w) :
    fineLog (v * 10 ^ 18 / w) = fineLog v - fineLog w := by
  have hsplit : v * 10 ^ 18 / w / 10 ^ 18 = v / 10 ^ 18 / (w / 10 ^ 18) := by
    field_simp
  unfold fineLog
  rw [hsplit, Real.log_div (by positivity) (by positivity)]
  ring

/-- The slope of the logarithm at the lower end bounds its growth. -/
theorem fineLog_le_add {v t : ℝ} (hv : 0 < v) (ht : 0 < t) :
    fineLog t ≤ fineLog v + 10 ^ 18 * ((t - v) / v) := by
  have hratio : t / 10 ^ 18 = v / 10 ^ 18 * (t / v) := by field_simp
  have hlog : Real.log (t / v) ≤ t / v - 1 := Real.log_le_sub_one_of_pos (by positivity)
  have hsub : t / v - 1 = (t - v) / v := by field_simp
  unfold fineLog
  rw [hratio, Real.log_mul (by positivity) (by positivity)]
  rw [hsub] at hlog
  linarith

/-- Rounding an argument down loses at most `10 ^ 18` over the argument. -/
theorem fineLog_le_of_floor {v t : ℝ} (hv : 0 < v) (ht : 0 < t) (h : t ≤ v + 1) :
    fineLog t ≤ fineLog v + 10 ^ 18 / v := by
  have hslope := fineLog_le_add hv ht
  have hstep : (t - v) / v ≤ 1 / v := by
    gcongr
    linarith
  have hscaled : 10 ^ 18 / v = 10 ^ 18 * (1 / v) := by ring
  rw [hscaled]
  linarith

end PredictionMarket.FixedPoint
