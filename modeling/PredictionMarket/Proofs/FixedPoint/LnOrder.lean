import PredictionMarket.Proofs.FixedPoint.LnError

/-!
# The order of logarithms

A rounded logarithm need not grow with its argument: its error, some thousand of the
finer units, can outweigh a growth that is too small.

* `ln_le_ln` says that a growth by more than the errors is never lost, and
  `ln_le_ln_of_growth` that one part in `10 ^ 14` is such a growth.
* `ln_le_ln_count_add` compares a logarithm with that of a number of outcomes.  The
  latter is far enough from the next unit (`fineLn_count`) for the errors not to carry
  over, so a bound on the exact logarithms is one on the rounded logarithms.
-/

namespace PredictionMarket.FixedPoint

/-- A logarithm does not go down if the exact one grows by more than the errors. -/
theorem ln_le_ln {x y lx ly : Int} (hx : 1 ≤ x) (hxmax : x ≤ Width.u128.greatest)
    (hy : 1 ≤ y) (hymax : y ≤ Width.u128.greatest) (hlx : ln x = .ok lx) (hly : ln y = .ok ly)
    (hgrowth : 10 ^ 18 * Real.log (x / 10 ^ 9) + 4000 ≤ 10 ^ 18 * Real.log (y / 10 ^ 9)) :
    lx ≤ ly := by
  obtain ⟨n, hn, hnearx⟩ := ln_spec hx hxmax
  obtain ⟨k, hk, hneary⟩ := ln_spec hy hymax
  obtain rfl : lx = n.tdiv one := by simpa [hlx] using hn
  obtain rfl : ly = k.tdiv one := by simpa [hly] using hk
  obtain ⟨-, hnhigh⟩ := abs_le.mp hnearx
  obtain ⟨hklow, -⟩ := abs_le.mp hneary
  have hreal : (n : ℝ) ≤ k := by linarith
  exact Int.tdiv_le_tdiv FixedPoint.one_pos (by exact_mod_cast hreal)

/-- A logarithm does not go down if its argument grows by one part in `10 ^ 14`. -/
theorem ln_le_ln_of_growth {x y lx ly : Int} (hx : 1 ≤ x) (hymax : y ≤ Width.u128.greatest)
    (hlx : ln x = .ok lx) (hly : ln y = .ok ly) (hgrowth : x ≤ 10 ^ 14 * (y - x)) : lx ≤ ly := by
  have hxy : x < y := by omega
  refine ln_le_ln hx (by omega) (by omega) hymax hlx hly ?_
  have hxpos : (0 : ℝ) < x := by exact_mod_cast hx
  have hypos : (0 : ℝ) < y := by exact_mod_cast hx.trans hxy.le
  have hreal : (x : ℝ) ≤ 10 ^ 14 * (y - x) := by exact_mod_cast hgrowth
  have hlog : 1 - (x : ℝ) / y ≤ Real.log (y / 10 ^ 9) - Real.log (x / 10 ^ 9) := by
    rw [← Real.log_div (by positivity) (by positivity), div_div_div_cancel_right₀ (by norm_num),
      ← inv_div (y : ℝ) x]
    exact Real.one_sub_inv_le_log_of_pos (by positivity)
  have hpart : (x : ℝ) / y ≤ 1 - 5 / 10 ^ 15 := by
    rw [div_le_iff₀ hypos]
    linarith
  linarith

/-- The logarithm of a number of outcomes is not within the errors below a unit. -/
theorem fineLn_count {n : Nat} (h2 : 2 ≤ n) (h16 : n ≤ 16) {k : Int}
    (hk : fineLn (n * one) = .ok k) : 0 ≤ k ∧ k % one + 4000 < one := by
  have hchecked : ∀ n < 17, 2 ≤ n →
      (fineLn ((n : Nat) * one)).toOption.any (fun k => 0 ≤ k ∧ k % one + 4000 < one) := by
    decide +kernel
  have hn := hchecked n (by omega) h2
  rw [hk] at hn
  exact of_decide_eq_true hn

/-- A number that the exact logarithm puts at most `x` above a number of outcomes is put
there by the rounded logarithm too. -/
theorem ln_le_ln_count_add {n : Nat} (h2 : 2 ≤ n) (h16 : n ≤ 16) {s x l count : Int}
    (hs : 1 ≤ s) (hsmax : s ≤ Width.u128.greatest) (hx : 0 ≤ x) (hl : ln s = .ok l)
    (hcount : ln (n * one) = .ok count)
    (hlog : 10 ^ 9 * Real.log (s / 10 ^ 9) ≤ 10 ^ 9 * Real.log n + x) : l ≤ count + x := by
  have hlow : 1 ≤ (n : Int) * one := by
    simp only [one]
    omega
  have hhigh : (n : Int) * one ≤ Width.u128.greatest := by
    simp only [one, Width.greatest]
    omega
  obtain ⟨a, ha, hanear⟩ := fineLn_spec hs hsmax
  obtain ⟨k, hk, hknear⟩ := fineLn_spec hlow hhigh
  rw [ln_eq_fineLn (by omega), ha, ok_bind] at hl
  rw [ln_eq_fineLn (by omega), hk, ok_bind] at hcount
  obtain rfl := Except.ok.inj hl
  obtain rfl := Except.ok.inj hcount
  obtain ⟨hk0, hroom⟩ := fineLn_count h2 h16 hk
  obtain ⟨-, hahigh⟩ := abs_le.mp hanear
  obtain ⟨hklow, -⟩ := abs_le.mp hknear
  push_cast at hklow
  rw [cast_one, mul_div_assoc, div_self (by norm_num), mul_one] at hklow
  have hreal : (a : ℝ) ≤ (k + 4000 + x * one : Int) := by
    push_cast
    rw [cast_one]
    linarith
  have hle : a ≤ k + 4000 + x * one := by exact_mod_cast hreal
  -- the errors do not reach the next unit
  have hquot : (k + 4000 + x * one).tdiv one = k.tdiv one + x := by
    have hnonneg : 0 ≤ x * one := mul_nonneg hx (le_of_lt FixedPoint.one_pos)
    rw [Int.tdiv_eq_ediv_of_nonneg (by omega), Int.tdiv_eq_ediv_of_nonneg hk0,
      Int.add_mul_ediv_right _ _ (ne_of_gt FixedPoint.one_pos)]
    simp only [one] at hroom ⊢
    omega
  rw [← hquot]
  exact Int.tdiv_le_tdiv FixedPoint.one_pos hle

end PredictionMarket.FixedPoint
