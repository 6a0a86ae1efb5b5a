import Mathlib
import PredictionMarket.Decimal
import PredictionMarket.Proofs.Number.Order

/-!
# What decimals owe to exact numbers

Decimals are rounded twice, to significant digits when they are divided and to places when they
are written.  Both times the result is the nearest number of a grid, which `NearestIn` says, and
a number of the grid is kept (`NearestIn.eq_of_multiple`).

* `nearestIn_roundHalfAway` is the grid of the integers, which places are.
* `div_spec` is the quotient.  Its grid has the unit of the twentieth significant digit, which
  `floorLog10_bounds` finds.
-/

namespace PredictionMarket.Decimal

/-! ## The nearest number of a grid -/

/-- The rational `r` is the multiple of `unit` nearest to `q`, and of two that are equally near
the one farther from zero. -/
structure NearestIn (unit q r : ℚ) : Prop where
  /-- It is a multiple. -/
  multiple : ∃ k : ℤ, r = k * unit
  /-- No multiple is nearer. -/
  nearest : ∀ k : ℤ, |q - r| ≤ |q - k * unit|
  /-- No multiple that is as near is farther from zero. -/
  away : ∀ k : ℤ, |q - k * unit| = |q - r| → |k * unit| ≤ |r|

variable {unit q r : ℚ}

/-- A number of the grid is kept. -/
theorem NearestIn.eq_of_multiple (h : NearestIn unit q r) {k : ℤ} (hk : q = k * unit) : r = q := by
  have hdist := h.nearest k
  rw [← hk, sub_self, abs_zero] at hdist
  exact (sub_eq_zero.mp (abs_nonpos_iff.mp hdist)).symm

/-- Rounding is the same on the other side of zero. -/
theorem NearestIn.neg (h : NearestIn unit q r) : NearestIn unit (-q) (-r) := by
  have hdist : ∀ s, |-q - s| = |q - -s| := by
    intro s
    rw [← abs_neg]
    congr 1
    ring
  have hflip : ∀ k : ℤ, -((k : ℚ) * unit) = ((-k : ℤ) : ℚ) * unit := by
    intro k
    push_cast
    ring
  refine ⟨?_, ?_, ?_⟩
  · obtain ⟨k, rfl⟩ := h.multiple
    exact ⟨-k, hflip k⟩
  · intro k
    rw [hdist, hdist, neg_neg, hflip]
    exact h.nearest (-k)
  · intro k htie
    rw [hdist, hdist, neg_neg, hflip] at htie
    rw [abs_neg, ← abs_neg, hflip]
    exact h.away (-k) htie

/-- Rounding is the same on a grid that is stretched. -/
theorem NearestIn.stretch (h : NearestIn unit q r) {c : ℚ} (hc : 0 < c) :
    NearestIn (unit * c) (q * c) (r * c) := by
  have hdist : ∀ s, |q * c - s * c| = |q - s| * c := by
    intro s
    rw [← sub_mul, abs_mul, abs_of_pos hc]
  refine ⟨?_, ?_, ?_⟩
  · obtain ⟨k, rfl⟩ := h.multiple
    exact ⟨k, mul_assoc _ _ _⟩
  · intro k
    rw [← mul_assoc, hdist, hdist]
    exact mul_le_mul_of_nonneg_right (h.nearest k) hc.le
  · intro k htie
    rw [← mul_assoc, hdist, hdist] at htie
    rw [← mul_assoc, abs_mul, abs_mul r]
    exact mul_le_mul_of_nonneg_right (h.away k (mul_right_cancel₀ hc.ne' htie)) (abs_nonneg c)

/-! ## Integers -/

/-- A rational moves up by half at most, and down by less. -/
theorem roundHalfAway_bounds (hq : 0 ≤ q) :
    (roundHalfAway q : ℚ) ≤ q + 1 / 2 ∧ q - 1 / 2 < roundHalfAway q := by
  have hhalf : mkRat 1 2 = 1 / 2 := by
    rw [Rat.mkRat_eq_div]
    norm_num
  have hlow := Rat.floor_le (1 / 2 + q)
  have hhigh : 1 / 2 + q - 1 < ((1 / 2 + q).floor : ℚ) := Rat.lt_floor
  rw [roundHalfAway, if_neg (not_lt.mpr hq), hhalf]
  constructor <;> linarith

/-- Below zero the opposite is rounded. -/
theorem roundHalfAway_of_neg (hq : q < 0) : roundHalfAway q = -roundHalfAway (-q) := by
  have hopposite : ¬ -q < 0 := by linarith
  rw [roundHalfAway, if_pos hq, roundHalfAway, if_neg hopposite, sub_eq_add_neg]

theorem roundHalfAway_nonneg (hq : 0 ≤ q) : 0 ≤ roundHalfAway q := by
  have hpos : (0 : ℚ) < roundHalfAway q + 1 := by linarith [(roundHalfAway_bounds hq).2]
  exact Int.lt_add_one_iff.mp (by exact_mod_cast hpos)

theorem roundHalfAway_nonpos (hq : q < 0) : roundHalfAway q ≤ 0 := by
  rw [roundHalfAway_of_neg hq, Int.neg_nonpos_iff]
  exact roundHalfAway_nonneg (by linarith)

/-- An integer below the rounded one is half a unit away or more, and one above it is farther. -/
theorem half_le_of_ne (hq : 0 ≤ q) (k : ℤ) :
    (k < roundHalfAway q → 1 / 2 ≤ q - k) ∧ (roundHalfAway q < k → 1 / 2 < k - q) := by
  obtain ⟨hup, hdown⟩ := roundHalfAway_bounds hq
  constructor
  · intro hlt
    have hstep : (k : ℚ) + 1 ≤ roundHalfAway q := by exact_mod_cast hlt
    linarith
  · intro hgt
    have hstep : (roundHalfAway q : ℚ) + 1 ≤ k := by exact_mod_cast hgt
    linarith

theorem nearestIn_of_nonneg (hq : 0 ≤ q) : NearestIn 1 q (roundHalfAway q) := by
  obtain ⟨hup, hdown⟩ := roundHalfAway_bounds hq
  have hhalf : |q - roundHalfAway q| ≤ 1 / 2 := abs_le.mpr ⟨by linarith, by linarith⟩
  refine ⟨⟨roundHalfAway q, (mul_one _).symm⟩, ?_, ?_⟩
  · intro k
    rw [mul_one]
    rcases lt_trichotomy k (roundHalfAway q) with hlt | rfl | hgt
    · exact hhalf.trans (((half_le_of_ne hq k).1 hlt).trans (le_abs_self _))
    · exact le_rfl
    · rw [abs_sub_comm q k]
      exact hhalf.trans (((half_le_of_ne hq k).2 hgt).le.trans (le_abs_self _))
  · intro k htie
    rw [mul_one] at htie ⊢
    rcases lt_trichotomy k (roundHalfAway q) with hlt | rfl | hgt
    · -- the rational lies halfway above this integer, which therefore is not below zero
      have hhalfway : q - k ≤ 1 / 2 := (le_abs_self _).trans (htie.le.trans hhalf)
      have hpos : (0 : ℚ) < k + 1 := by linarith
      have hk : 0 ≤ k := Int.lt_add_one_iff.mp (by exact_mod_cast hpos)
      exact_mod_cast abs_le_abs_of_nonneg hk hlt.le
    · exact le_rfl
    · have hnear : (k : ℚ) - q ≤ 1 / 2 := by
        rw [abs_sub_comm] at htie
        exact (le_abs_self _).trans (htie.le.trans hhalf)
      linarith [(half_le_of_ne hq k).2 hgt]

theorem nearestIn_roundHalfAway (q : ℚ) : NearestIn 1 q (roundHalfAway q) := by
  rcases lt_or_ge q 0 with hneg | hnonneg
  · have hopposite := (nearestIn_of_nonneg (neg_nonneg.mpr hneg.le)).neg
    rw [neg_neg] at hopposite
    rw [roundHalfAway_of_neg hneg]
    push_cast
    exact hopposite
  · exact nearestIn_of_nonneg hnonneg

/-- An integer is kept. -/
theorem roundHalfAway_intCast (k : ℤ) : roundHalfAway k = k := by
  exact_mod_cast (nearestIn_roundHalfAway k).eq_of_multiple (mul_one _).symm

theorem nearestIn_roundTo (hunit : 0 < unit) (q : ℚ) : NearestIn unit q (roundTo unit q) := by
  have hstretched := (nearestIn_roundHalfAway (q / unit)).stretch hunit
  rwa [one_mul, div_mul_cancel₀ q hunit.ne'] at hstretched

/-! ## Significant digits -/

theorem decimalValue_eq (c : ℕ) (x : ℤ) : Number.decimalValue c x = c * 10 ^ x := by
  rw [Number.decimalValue, Rat.mkRat_eq_div]
  rcases le_total 0 x with hx | hx
  · obtain ⟨k, rfl⟩ := Int.eq_ofNat_of_zero_le hx
    simp
  · obtain ⟨k, hk⟩ := Int.eq_ofNat_of_zero_le (Int.neg_nonneg.mpr hx)
    obtain rfl : x = -(k : ℤ) := by omega
    simp [zpow_neg, div_eq_mul_inv]

/-- The digits of a natural tell the powers of ten around it. -/
theorem exists_length_toDigits {n : ℕ} (hn : 0 < n) :
    ∃ k, (Nat.toDigits 10 n).length = k + 1 ∧ 10 ^ k ≤ n ∧ n < 10 ^ (k + 1) := by
  have hpositive : 0 < (Nat.toDigits 10 n).length := Nat.length_toDigits_pos
  obtain ⟨k, hk⟩ := Nat.exists_eq_add_one_of_ne_zero hpositive.ne'
  refine ⟨k, hk, ?_, (Nat.length_toDigits_le_iff (by decide) (Nat.succ_pos k)).mp hk.le⟩
  rcases Nat.eq_zero_or_pos k with rfl | hpos
  · exact hn
  · by_contra hlt
    have := (Nat.length_toDigits_le_iff (by decide) hpos).mpr (not_le.mp hlt)
    omega

/-- A fraction above one has two at least for the integer from it on. -/
theorem two_le_ceil {n d : ℕ} (hn : 0 < n) (hlt : n < d) : 2 ≤ (d + n - 1) / n :=
  (Nat.le_div_iff_mul_le hn).mpr (by omega)

/-- What holds of the integer below `d / n` holds of `d / n`, strictly on the other side. -/
theorem ceil_sub_one_bounds {n d a b : ℕ} (hn : 0 < n) (hlt : n < d)
    (hlow : a ≤ (d + n - 1) / n - 1) (hhigh : (d + n - 1) / n - 1 < b) :
    a * n < d ∧ d ≤ b * n := by
  have htwo := two_le_ceil hn hlt
  have hbelow : (a + 1) * n ≤ d + n - 1 := (Nat.le_div_iff_mul_le hn).mp (by omega)
  have habove : d + n - 1 < (b + 1) * n := (Nat.div_lt_iff_lt_mul hn).mp (by omega)
  rw [Nat.add_mul, Nat.one_mul] at hbelow habove
  omega

/-- The exponent of `n / d` is that of the greatest power of ten up to it. -/
theorem floorLog10_bounds {n d : ℕ} (hn : 0 < n) (hd : 0 < d) :
    (10 : ℚ) ^ Number.floorLog10 n d ≤ (n : ℚ) / d ∧
      (n : ℚ) / d < 10 ^ (Number.floorLog10 n d + 1) := by
  have hnpos : (0 : ℚ) < n := by exact_mod_cast hn
  have hdpos : (0 : ℚ) < d := by exact_mod_cast hd
  rw [Number.floorLog10]
  split
  · rename_i hle
    obtain ⟨k, hlength, hlow, hhigh⟩ := exists_length_toDigits (Nat.div_pos hle hd)
    rw [Nat.le_div_iff_mul_le hd] at hlow
    rw [Nat.div_lt_iff_lt_mul hd] at hhigh
    rw [hlength, Nat.cast_add_one, add_sub_cancel_right, zpow_natCast, le_div_iff₀ hdpos,
      div_lt_iff₀ hdpos]
    exact ⟨by exact_mod_cast hlow, by exact_mod_cast hhigh⟩
  · -- below one the digits are those of the reciprocal, so the bounds change sides
    rename_i hlt
    have htwo := two_le_ceil hn (not_le.mp hlt)
    obtain ⟨k, hlength, hlow, hhigh⟩ := exists_length_toDigits (Nat.sub_pos_of_lt htwo)
    obtain ⟨hbelow, habove⟩ := ceil_sub_one_bounds hn (not_le.mp hlt) hlow hhigh
    have hexponent : -((k + 1 : ℕ) : ℤ) + 1 = -(k : ℤ) := by
      push_cast
      ring
    rw [hlength, hexponent, zpow_neg, zpow_neg, zpow_natCast, zpow_natCast,
      inv_le_comm₀ (by positivity) (by positivity), lt_inv_comm₀ (by positivity) (by positivity),
      inv_div, div_le_iff₀ hnpos, lt_div_iff₀ hnpos]
    exact ⟨by exact_mod_cast habove, by exact_mod_cast hbelow⟩

/-- The unit of the last digit kept is a power of ten, and so is the greatest one up to the
number. -/
theorem lastUnit_eq {q : ℚ} (hq : q ≠ 0) :
    ∃ e : ℤ, (10 : ℚ) ^ e ≤ |q| ∧ |q| < 10 ^ (e + 1) ∧ lastUnit q = 10 ^ (e + 1 - precision) := by
  obtain ⟨hlow, hhigh⟩ :=
    floorLog10_bounds (Int.natAbs_pos.mpr (Rat.num_ne_zero.mpr hq)) q.den_pos
  rw [Number.natAbs_div_den] at hlow hhigh
  exact ⟨_, hlow, hhigh, by rw [lastUnit, decimalValue_eq, Nat.cast_one, one_mul]⟩

/-- A quotient that is not zero is rounded to twenty significant digits: to the nearest multiple
of the unit of the twentieth, and a tie away from zero. -/
theorem div_spec {x y : ℚ} (h : x / y ≠ 0) :
    ∃ e : ℤ, (10 : ℚ) ^ e ≤ |x / y| ∧ |x / y| < 10 ^ (e + 1) ∧
      NearestIn (10 ^ (e + 1 - 20)) (x / y) (div x y) := by
  obtain ⟨e, hlow, hhigh, hunit⟩ := lastUnit_eq h
  refine ⟨e, hlow, hhigh, ?_⟩
  rw [div, if_neg h, hunit]
  exact nearestIn_roundTo (by positivity) _

theorem div_zero_left (y : ℚ) : div 0 y = 0 := by
  rw [div, zero_div]
  rfl

end PredictionMarket.Decimal
