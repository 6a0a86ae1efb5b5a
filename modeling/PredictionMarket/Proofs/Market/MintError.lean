import PredictionMarket.Proofs.FixedPoint.RoundTrip
import PredictionMarket.Proofs.Market.Mint

/-!
# How near a mint comes to the exact rule

With `S` for the pool, `E` for the exponential of the outcome and `X` for the
payment in units of the scale, the exact rule mints the number `l` of units of the
scale for which `E * exp l = S * (exp X - 1) + E`.  A mint has its logarithm and its
exponentials rounded down and divides in between, and still:

* `Minted.own_mul_exp_le` says that it exceeds the rule by no more than a trace, for
  every rounding that matters goes against the buyer;
* `Minted.lt_own_mul_exp` says that it falls short by a few units of `10 ^ -9` only.
-/

namespace PredictionMarket.Market

open FixedPoint

theorem log_mul_mul_exp {c s : ℝ} (hc : 0 < c) (hs : 0 < s) (x : ℝ) :
    Real.log (c * (s * Real.exp x)) = Real.log c + (Real.log s + x) := by
  rw [Real.log_mul (by positivity) (by positivity),
    Real.log_mul (by positivity) (Real.exp_ne_zero x), Real.log_exp]

/-! ## The exponential of an outcome -/

/-- The exponential of a sum of ratios, in units of `10 ^ -9`. -/
theorem exp_add_ratio (x l : Int) :
    10 ^ 9 * Real.exp ((x + l : Int) / 10 ^ 9) =
      10 ^ 9 * Real.exp (x / 10 ^ 9) * Real.exp (l / 10 ^ 9) := by
  rw [mul_assoc, ← Real.exp_add]
  push_cast
  ring_nf

namespace Minted

variable {m : Market} {j : Fin maxOutcomes} {payment shares l : Int}

theorem own_pos (h : m.Sound) (hj : j < m.outcomes) : (0 : ℝ) < expValue (m.ratio j) := by
  exact_mod_cast expValue_pos (h.own_nonneg hj)

/-- One exponential is not more than the pool. -/
theorem own_le_poolValue (h : m.Sound) (hj : j < m.outcomes) :
    (expValue (m.ratio j) : ℝ) ≤ m.poolValue := by
  have hle := h.expValue_add_one_le (m.ratio_mem hj)
  have hone := FixedPoint.one_pos
  exact_mod_cast (by omega : expValue (m.ratio j) ≤ m.poolValue)

theorem one_le_exp_charge (h : m.Sound) (hm : m.Minted j payment shares) :
    1 ≤ Real.exp (m.charge payment / 10 ^ 9) := by
  apply Real.one_le_exp
  have : (0 : ℝ) ≤ m.charge payment := by exact_mod_cast hm.charge_nonneg h
  positivity

/-- The argument of the logarithm, with its quotient cleared, from above. -/
theorem own_mul_argument_le (h : m.Sound) (hj : j < m.outcomes)
    (hm : m.Minted j payment shares) :
    (expValue (m.ratio j) : ℝ) * m.argument j payment ≤
      10 ^ 9 * (m.poolValue * (Real.exp (m.charge payment / 10 ^ 9) - 1) +
        expValue (m.ratio j)) := by
  have hown := own_pos h hj
  have hround := tdiv_le (hm.gain_nonneg h) (expValue_pos (h.own_nonneg hj))
  rw [le_div_iff₀ hown, gain] at hround
  push_cast at hround
  rw [cast_one] at hround
  have hpool := h.cast_poolValue_pos.le
  have hgrown := expValue_le (hm.charge_nonneg h) hm.charge_le
  have hscaled := mul_le_mul_of_nonneg_left hgrown hpool
  rw [argument, gain]
  push_cast
  rw [cast_one]
  linarith

/-- The argument of the logarithm, with its quotient cleared, from below. -/
theorem lt_own_mul_argument (h : m.Sound) (hj : j < m.outcomes)
    (hm : m.Minted j payment shares) :
    m.poolValue * (10 ^ 9 * Real.exp (m.charge payment / 10 ^ 9) * (1 - 3 / 10 ^ 15) -
        (10 ^ 9 + 1)) + (10 ^ 9 - 1) * expValue (m.ratio j) <
      (expValue (m.ratio j) : ℝ) * m.argument j payment := by
  have hown := own_pos h hj
  have hround := lt_tdiv (hm.gain_nonneg h) (expValue_pos (h.own_nonneg hj))
  rw [div_lt_iff₀ hown, gain] at hround
  push_cast at hround
  rw [cast_one] at hround
  have hpool := h.cast_poolValue_pos.le
  have hgrown := le_of_lt (lt_expValue (hm.charge_nonneg h) hm.charge_le)
  have hscaled := mul_le_mul_of_nonneg_left hgrown hpool
  rw [argument, gain]
  push_cast
  rw [cast_one]
  linarith

/-- A mint exceeds the exact rule by no more than a trace. -/
theorem own_mul_exp_le (h : m.Sound) (hj : j < m.outcomes) (hm : m.Minted j payment shares)
    (hl : ln (m.argument j payment) = .ok l) :
    expValue (m.ratio j) * Real.exp (l / 10 ^ 9) ≤
      (1 + 3 / 10 ^ 15) * (m.poolValue * (Real.exp (m.charge payment / 10 ^ 9) - 1) +
        expValue (m.ratio j)) := by
  have hone : one ≤ m.argument j payment := le_trans (by decide) (hm.le_argument h hj)
  have hexp := mul_le_mul_of_nonneg_left (exp_ln_le hone hm.argument_le hl)
    (le_of_lt (own_pos h hj))
  have hargument := hm.own_mul_argument_le h hj
  linarith

/-- A mint falls short of the exact rule by a few parts in `10 ^ 9` of the pool. -/
theorem lt_own_mul_exp (h : m.Sound) (hj : j < m.outcomes) (hm : m.Minted j payment shares)
    (hl : ln (m.argument j payment) = .ok l) :
    (1 - 1001 / 10 ^ 12) * (m.poolValue * (Real.exp (m.charge payment / 10 ^ 9) *
        (1 - 3 / 10 ^ 15) - (1 + 1 / 10 ^ 9)) + (1 - 1 / 10 ^ 9) * expValue (m.ratio j)) <
      expValue (m.ratio j) * Real.exp (l / 10 ^ 9) := by
  have hone : 1 ≤ m.argument j payment := le_trans (by decide) (hm.le_argument h hj)
  have hexp := mul_lt_mul_of_pos_left (lt_exp_ln hone hm.argument_le hl) (own_pos h hj)
  have hargument := hm.lt_own_mul_argument h hj
  linarith

end Minted

end PredictionMarket.Market
