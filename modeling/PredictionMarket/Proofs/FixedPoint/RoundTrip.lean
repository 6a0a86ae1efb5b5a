import PredictionMarket.Proofs.FixedPoint.ExpOrder
import PredictionMarket.Proofs.FixedPoint.LnError

/-!
# Exponential and logarithm undo each other

The exponential and the logarithm are two series with reductions of their own, and each
rounds.  Taken one after the other they lead back to where they started from, but for the
last units.

There are two groups.

* One rounded, one exact.  `exp_le_expValue_mul` bounds the part that the rounded exponential
  loses.  `exp_ln_le` and `lt_exp_ln` put the exact exponential of a rounded logarithm next
  to the argument: no more than a trace above it, and little more than one part in `10 ^ 9`
  below.
* Both rounded.  `ln_expValue_bounds` is one-sided, as every rounding of an exponential from
  one on goes down.  `expValue_ln_bounds` is relative to the argument, for a unit in the
  logarithm is one part in `10 ^ 9` of it.
-/

namespace PredictionMarket.FixedPoint

/-! ## One rounded, one exact -/

/-- The exponential of a small trace. -/
theorem exp_trace_le : Real.exp (2 / 10 ^ 15) ≤ 1 + 3 / 10 ^ 15 := by
  have hlow := Real.add_one_le_exp (-(2 / 10 ^ 15 : ℝ))
  rw [Real.exp_neg] at hlow
  have hpos := Real.exp_pos (2 / 10 ^ 15 : ℝ)
  have hinv := (le_inv_comm₀ (by norm_num) hpos).mp hlow
  apply hinv.trans
  norm_num

/-- A unit and a trace below zero, the exponential has lost little more than the
unit. -/
theorem le_exp_neg_unit : 1 - 1001 / 10 ^ 12 ≤ Real.exp (-((1 + 2 / 10 ^ 6) / 10 ^ 9)) := by
  have hlow := Real.add_one_le_exp (-((1 + 2 / 10 ^ 6) / 10 ^ 9 : ℝ))
  refine le_trans ?_ hlow
  norm_num

/-- The exponential of a rounded logarithm is above its argument by no more than a
trace. -/
theorem exp_ln_le {x l : Int} (h1 : one ≤ x) (h : x ≤ Width.u128.greatest) (hl : ln x = .ok l) :
    10 ^ 9 * Real.exp (l / 10 ^ 9) ≤ (1 + 3 / 10 ^ 15) * x := by
  have hupper := ln_upper h1 h hl
  have hx : (0 : ℝ) < x := by exact_mod_cast lt_of_lt_of_le FixedPoint.one_pos h1
  have harg : (l : ℝ) / 10 ^ 9 ≤ Real.log (x / 10 ^ 9) + 2 / 10 ^ 15 := by
    rw [div_le_iff₀ (by norm_num)]
    linarith
  calc 10 ^ 9 * Real.exp (l / 10 ^ 9)
      ≤ 10 ^ 9 * Real.exp (Real.log (x / 10 ^ 9) + 2 / 10 ^ 15) := by gcongr
    _ = Real.exp (2 / 10 ^ 15) * x := by
        rw [Real.exp_add, Real.exp_log (by positivity)]
        ring
    _ ≤ (1 + 3 / 10 ^ 15) * x := by
        gcongr
        exact exp_trace_le

/-- The exponential of a rounded logarithm is below its argument by little more
than one part in `10 ^ 9`. -/
theorem lt_exp_ln {x l : Int} (h1 : 1 ≤ x) (h : x ≤ Width.u128.greatest) (hl : ln x = .ok l) :
    (1 - 1001 / 10 ^ 12) * x < 10 ^ 9 * Real.exp (l / 10 ^ 9) := by
  have hlower := ln_lower h1 h hl
  have hx : (0 : ℝ) < x := by exact_mod_cast h1
  have harg : Real.log ((x : ℝ) / 10 ^ 9) + -((1 + 2 / 10 ^ 6) / 10 ^ 9) < l / 10 ^ 9 := by
    rw [lt_div_iff₀ (by norm_num)]
    linarith
  calc (1 - 1001 / 10 ^ 12) * (x : ℝ)
      ≤ Real.exp (-((1 + 2 / 10 ^ 6) / 10 ^ 9)) * x := by
        gcongr
        exact le_exp_neg_unit
    _ = 10 ^ 9 * Real.exp (Real.log (x / 10 ^ 9) + -((1 + 2 / 10 ^ 6) / 10 ^ 9)) := by
        rw [Real.exp_add, Real.exp_log (by positivity)]
        ring
    _ < 10 ^ 9 * Real.exp (l / 10 ^ 9) := by gcongr

/-- An exponential that has lost less than a unit has lost less than the part of it
that the unit is. -/
theorem exp_le_expValue_mul {x : Int} (h0 : 0 ≤ x) (h : x ≤ expLimit) :
    10 ^ 9 * Real.exp (x / 10 ^ 9) ≤ expValue x * (1 + 1001 / 10 ^ 12) := by
  have hlow := lt_expValue h0 h
  have hone : (10 : ℝ) ^ 9 ≤ expValue x := by
    rw [← cast_one]
    exact_mod_cast one_le_expValue h0
  nlinarith

/-! ## Both rounded -/

/-- The logarithm of a number from one on is not negative. -/
theorem ln_nonneg {x l : Int} (h1 : one ≤ x) (h : x ≤ Width.u128.greatest) (hl : ln x = .ok l) :
    0 ≤ l := by
  obtain ⟨n, hn, hnear⟩ := ln_spec (le_trans (by decide) h1) h
  obtain rfl : l = n.tdiv one := by simpa [hl] using hn
  have hlog : 0 ≤ Real.log ((x : ℝ) / 10 ^ 9) := by
    apply Real.log_nonneg
    rw [le_div_iff₀ (by norm_num), one_mul, ← cast_one]
    exact_mod_cast h1
  obtain ⟨hlow, -⟩ := abs_le.mp hnear
  have hreal : ((-2000 : Int) : ℝ) ≤ n := by
    push_cast
    linarith
  -- the error below zero is dropped with the last nine places
  have hle : -2000 ≤ n := by exact_mod_cast hreal
  calc (0 : Int) = (-2000 : Int).tdiv one := by decide
    _ ≤ n.tdiv one := Int.tdiv_le_tdiv FixedPoint.one_pos hle

/-- The exact logarithm of a rounded exponential is not above the argument. -/
theorem log_expValue_le {y : Int} (h0 : 0 ≤ y) (h : y ≤ expLimit) :
    Real.log (expValue y / 10 ^ 9) ≤ y / 10 ^ 9 := by
  have hv : (0 : ℝ) < expValue y := by exact_mod_cast expValue_pos h0
  rw [Real.log_le_iff_le_exp (by positivity), div_le_iff₀ (by norm_num), mul_comm]
  exact expValue_le h0 h

/-- The exact logarithm of a rounded exponential is below the argument by little more than
one part in `10 ^ 9`. -/
theorem le_log_expValue {y : Int} (h0 : 0 ≤ y) (h : y ≤ expLimit) :
    (y : ℝ) / 10 ^ 9 ≤ Real.log (expValue y / 10 ^ 9) + 1001 / 10 ^ 12 := by
  have hv : (0 : ℝ) < expValue y := by exact_mod_cast expValue_pos h0
  have hexp : Real.exp (y / 10 ^ 9) ≤ expValue y / 10 ^ 9 * (1 + 1001 / 10 ^ 12) := by
    have hlost := exp_le_expValue_mul h0 h
    rw [div_mul_eq_mul_div, le_div_iff₀ (by norm_num)]
    linarith
  calc (y : ℝ) / 10 ^ 9 = Real.log (Real.exp (y / 10 ^ 9)) := (Real.log_exp _).symm
    _ ≤ Real.log (expValue y / 10 ^ 9 * (1 + 1001 / 10 ^ 12)) :=
        Real.log_le_log (Real.exp_pos _) hexp
    _ = Real.log (expValue y / 10 ^ 9) + Real.log (1 + 1001 / 10 ^ 12) :=
        Real.log_mul (by positivity) (by norm_num)
    _ ≤ Real.log (expValue y / 10 ^ 9) + 1001 / 10 ^ 12 := by
        have htrace := Real.log_le_sub_one_of_pos (by norm_num : (0 : ℝ) < 1 + 1001 / 10 ^ 12)
        linarith

/-- The logarithm of a number from a rounded exponential on is below the argument of the
exponential by two units at most. -/
theorem sub_two_le_ln {y x l : Int} (h0 : 0 ≤ y) (h : y ≤ expLimit) (hle : expValue y ≤ x)
    (hmax : x ≤ Width.u128.greatest) (hl : ln x = .ok l) : y - 2 ≤ l := by
  have hpos := expValue_pos h0
  have hlower := ln_lower (hpos.trans_le hle) hmax hl
  have hup := le_log_expValue h0 h
  have hv : (0 : ℝ) < expValue y := by exact_mod_cast hpos
  have hreal : (expValue y : ℝ) ≤ x := by exact_mod_cast hle
  have hlog : Real.log ((expValue y : ℝ) / 10 ^ 9) ≤ Real.log (x / 10 ^ 9) := by gcongr
  have hcast : ((y - 3 : Int) : ℝ) < l := by
    push_cast
    linarith
  have hlt : y - 3 < l := by exact_mod_cast hcast
  omega

/-- The logarithm of a rounded exponential is the argument, or up to two units less. -/
theorem ln_expValue_bounds {y : Int} (h0 : 0 ≤ y) (h : y ≤ expLimit) :
    ∃ r, ln (expValue y) = .ok r ∧ y - 2 ≤ r ∧ r ≤ y := by
  have hone := one_le_expValue h0
  have hmax := expValue_le_greatest y
  obtain ⟨r, hr⟩ := ln_ok (expValue_pos h0) hmax
  have hupper := ln_upper hone hmax hr
  have hdown := log_expValue_le h0 h
  refine ⟨r, hr, sub_two_le_ln h0 h le_rfl hmax hr, ?_⟩
  have hreal : (r : ℝ) < (y + 1 : Int) := by
    push_cast
    linarith
  have hlt : r < y + 1 := by exact_mod_cast hreal
  omega

/-- The logarithm of a number up to the greatest exponential is within the limit. -/
theorem ln_le_expLimit {x l : Int} (h1 : one ≤ x) (h : x ≤ expValue expLimit) (hl : ln x = .ok l) :
    l ≤ expLimit := by
  have hbound := expValue_le (x := expLimit) (by decide) le_rfl
  have hmax := h.trans (expValue_le_greatest expLimit)
  have hupper := ln_upper h1 hmax hl
  have hx : (0 : ℝ) < x := by exact_mod_cast lt_of_lt_of_le FixedPoint.one_pos h1
  have hle : (x : ℝ) / 10 ^ 9 ≤ Real.exp ((expLimit : Int) / 10 ^ 9) := by
    rw [div_le_iff₀ (by norm_num), mul_comm]
    refine le_trans ?_ hbound
    exact_mod_cast h
  have hlog := Real.log_le_log (by positivity) hle
  rw [Real.log_exp] at hlog
  have hreal : (l : ℝ) < (expLimit + 1 : Int) := by
    push_cast
    linarith
  have hlt : l < expLimit + 1 := by exact_mod_cast hreal
  omega

/-- The exponential of a rounded logarithm is the argument, up to one unit and two parts in
`10 ^ 9`. -/
theorem expValue_ln_bounds {x : Int} (h1 : one ≤ x) (h : x ≤ expValue expLimit) :
    ∃ r, ln x = .ok r ∧ one * |expValue r - x| ≤ 2 * x + one := by
  have hmax := h.trans (expValue_le_greatest expLimit)
  obtain ⟨r, hr⟩ := ln_ok (le_trans (by decide) h1) hmax
  have h0 := ln_nonneg h1 hmax hr
  have hlimit := ln_le_expLimit h1 h hr
  have habove := exp_ln_le h1 hmax hr
  have hbelow := lt_exp_ln (le_trans (by decide) h1) hmax hr
  have hdown := expValue_le h0 hlimit
  have hup := lt_expValue h0 hlimit
  have hx : (0 : ℝ) < x := by exact_mod_cast lt_of_lt_of_le FixedPoint.one_pos h1
  have hreal : 10 ^ 9 * |(expValue r : ℝ) - x| ≤ 2 * x + 10 ^ 9 := by
    have hnear : |(expValue r : ℝ) - x| ≤ (2 * x + 10 ^ 9) / 10 ^ 9 := by
      rw [abs_le]
      constructor <;> linarith
    rw [le_div_iff₀ (by norm_num)] at hnear
    linarith
  refine ⟨r, hr, ?_⟩
  have hcast : ((one * |expValue r - x| : Int) : ℝ) ≤ (2 * x + one : Int) := by
    push_cast
    rw [cast_one]
    exact hreal
  exact_mod_cast hcast

/-- Whoever takes the logarithm of an exponential gets the argument back or up to two units
less, and whoever takes the exponential of a logarithm is off by a unit and two parts in
`10 ^ 9` at most. -/
theorem exp_and_ln_undo_each_other :
    (∀ y : Int, 0 ≤ y → y ≤ expLimit →
      ∃ v r, exp y = .ok v ∧ ln v = .ok r ∧ y - 2 ≤ r ∧ r ≤ y) ∧
    ∀ x top : Int, exp expLimit = .ok top → one ≤ x → x ≤ top →
      ∃ r v, ln x = .ok r ∧ exp r = .ok v ∧ one * |v - x| ≤ 2 * x + one := by
  constructor
  · intro y h0 h
    obtain ⟨r, hr, hbounds⟩ := ln_expValue_bounds h0 h
    exact ⟨expValue y, r, exp_eq_ok y, hr, hbounds⟩
  · intro x top htop h1 h
    obtain rfl := expValue_eq_of_ok htop
    obtain ⟨r, hr, hbound⟩ := expValue_ln_bounds h1 h
    exact ⟨r, expValue r, hr, exp_eq_ok r, hbound⟩

/-- A unit is lost on the way up and down from `43769342`, and two units on the way down and
up from `1018802175`. -/
theorem exp_and_ln_undo_each_other_lossy :
    exp 43769342 = .ok 1044741349 ∧ ln 1044741349 = .ok 43769341 ∧
      ln 1018802175 = .ok 18627598 ∧ exp 18627598 = .ok 1018802173 ∧
      43769342 - 2 ≤ (43769341 : Int) ∧ (43769341 : Int) ≤ 43769342 ∧
      one * |(1018802173 : Int) - 1018802175| ≤ 2 * 1018802175 + one := by
  have hexp : exp 43769342 = .ok 1044741349 := by cbv
  have hln : ln 1044741349 = .ok 43769341 := by cbv
  have hln' : ln 1018802175 = .ok 18627598 := by cbv
  have hexp' : exp 18627598 = .ok 1018802173 := by cbv
  have htop : exp expLimit = .ok 485165195409790097 := by cbv
  obtain ⟨hup, hdown⟩ := exp_and_ln_undo_each_other
  obtain ⟨v, r, hv, hr, hlow, hhigh⟩ := hup 43769342 (by decide) (by decide)
  obtain rfl := Except.ok.inj (hexp.symm.trans hv)
  obtain rfl := Except.ok.inj (hln.symm.trans hr)
  obtain ⟨r, v, hr, hv, hnear⟩ := hdown 1018802175 _ htop (by decide) (by decide)
  obtain rfl := Except.ok.inj (hln'.symm.trans hr)
  obtain rfl := Except.ok.inj (hexp'.symm.trans hv)
  exact ⟨hexp, hln, hln', hexp', hlow, hhigh, hnear⟩

end PredictionMarket.FixedPoint
