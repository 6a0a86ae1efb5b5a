import Mathlib
import PredictionMarket.Proofs.Market.MintError
import PredictionMarket.Proofs.Market.Valuation

/-!
# A payment tracks the cost

A trade should raise the cost by what is paid for it.  In exact arithmetic the pool
grows by the factor `exp X`, where `X` is the payment in units of the scale.  Here it
grows by that factor up to some parts in `10 ^ 9` (`Minted.poolValue_credit_le` and
`Minted.lt_poolValue_credit`), so its logarithm grows by `X` up to a few units
(`Minted.ln_credit_le` and `Minted.lt_ln_credit`).  What is left is to scale the
logarithms.
-/

namespace PredictionMarket.Market

open FixedPoint

/-- The pool after a trade. -/
theorem Sound.poolValue_credit {m : Market} (h : m.Sound) {j : Fin maxOutcomes}
    (hj : j < m.outcomes) {l : Int} (hl : 0 ≤ l) (payment : Int) :
    (m.credit j (m.scale * l) payment).poolValue =
      m.poolValue - expValue (m.ratio j) + expValue (m.ratio j + l) := by
  rw [poolValue, h.ratios_credit hj hl, sum_map_set expValue (m.getElem?_ratios hj), ← poolValue]

namespace Minted

variable {m : Market} {j : Fin maxOutcomes} {payment shares l : Int}

/-- The pool grows by no more than the exponential of the payment and two parts in
`10 ^ 9`. -/
theorem poolValue_credit_le (h : m.Sound) (hj : j < m.outcomes)
    (hm : m.Minted j payment shares) (hl : ln (m.argument j payment) = .ok l) (hl0 : 0 ≤ l)
    (hlive : (m.credit j (m.scale * l) payment).Live) :
    ((m.credit j (m.scale * l) payment).poolValue : ℝ) ≤
      (1 + 1002 / 10 ^ 12) * (m.poolValue * Real.exp (m.charge payment / 10 ^ 9)) := by
  have hx := h.own_nonneg hj
  have hown := own_pos h hj
  have hpool := own_le_poolValue h hj
  have hX := hm.one_le_exp_charge h
  have hgrown := expValue_le (add_nonneg hx hl0) (hlive _ (h.ratio_add_mem hj hl0 payment))
  rw [exp_add_ratio] at hgrown
  have hexact := exp_le_expValue_mul hx (hm.live _ (m.ratio_mem hj))
  have hrule := hm.own_mul_exp_le h hj hl
  set S : ℝ := (m.poolValue : ℝ)
  set E : ℝ := (expValue (m.ratio j) : ℝ)
  set X := Real.exp (m.charge payment / 10 ^ 9)
  have hrule0 : 0 ≤ S * (X - 1) + E := by nlinarith
  have hnew : (expValue (m.ratio j + l) : ℝ) ≤ (1 + 1002 / 10 ^ 12) * (S * (X - 1) + E) :=
    calc (expValue (m.ratio j + l) : ℝ)
        ≤ E * (1 + 1001 / 10 ^ 12) * Real.exp (l / 10 ^ 9) :=
          hgrown.trans (by gcongr)
      _ = (1 + 1001 / 10 ^ 12) * (E * Real.exp (l / 10 ^ 9)) := by ring
      _ ≤ (1 + 1001 / 10 ^ 12) * ((1 + 3 / 10 ^ 15) * (S * (X - 1) + E)) := by gcongr
      _ ≤ (1 + 1002 / 10 ^ 12) * (S * (X - 1) + E) := by nlinarith
  rw [h.poolValue_credit hj hl0]
  push_cast
  linarith

/-- The pool grows by no less than the exponential of the payment without four parts
in `10 ^ 9`. -/
theorem lt_poolValue_credit (h : m.Sound) (hj : j < m.outcomes)
    (hm : m.Minted j payment shares) (hl : ln (m.argument j payment) = .ok l) (hl0 : 0 ≤ l)
    (hlive : (m.credit j (m.scale * l) payment).Live) :
    (1 - 36 / 10 ^ 10) * (m.poolValue * Real.exp (m.charge payment / 10 ^ 9)) <
      (m.credit j (m.scale * l) payment).poolValue := by
  have hx := h.own_nonneg hj
  have hown := own_pos h hj
  have hpool := own_le_poolValue h hj
  have hX := hm.one_le_exp_charge h
  have htwo : 2 * (10 : ℝ) ^ 9 ≤ m.poolValue := by
    rw [← cast_one]
    exact_mod_cast h.two_mul_one_le
  have hgrown := lt_expValue (add_nonneg hx hl0) (hlive _ (h.ratio_add_mem hj hl0 payment))
  rw [exp_add_ratio] at hgrown
  have hexact := expValue_le hx (hm.live _ (m.ratio_mem hj))
  have hrule := hm.lt_own_mul_exp h hj hl
  set S : ℝ := (m.poolValue : ℝ)
  set E : ℝ := (expValue (m.ratio j) : ℝ)
  set X := Real.exp (m.charge payment / 10 ^ 9)
  have hSX : S ≤ S * X := le_mul_of_one_le_right (by linarith) hX
  have hnew : (1 - 3 / 10 ^ 15) * (E * Real.exp (l / 10 ^ 9)) <
      expValue (m.ratio j + l) + 1 := by
    refine lt_of_le_of_lt ?_ hgrown
    have hmul := mul_le_mul_of_nonneg_right hexact (le_of_lt (Real.exp_pos ((l : ℝ) / 10 ^ 9)))
    linarith
  rw [h.poolValue_credit hj hl0]
  push_cast
  linarith

/-! ## The logarithm of the pool -/

/-- The logarithm of the pool grows by no more than the payment and two units. -/
theorem ln_credit_le (h : m.Sound) (hj : j < m.outcomes) (hm : m.Minted j payment shares)
    (hl : ln (m.argument j payment) = .ok l) (hl0 : 0 ≤ l)
    (hlive : (m.credit j (m.scale * l) payment).Live) {before after : Int}
    (hbefore : ln m.poolValue = .ok before)
    (hafter : ln (m.credit j (m.scale * l) payment).poolValue = .ok after) :
    after ≤ before + m.charge payment + 2 := by
  have hsound := h.credit hj hl0 payment
  have hS := h.cast_poolValue_pos
  have hS' := hsound.cast_poolValue_pos
  have hlow := ln_lower (le_trans (by decide) h.one_le_poolValue)
    (h.poolValue_le_greatest hm.live) hbefore
  have hhigh := ln_upper hsound.one_le_poolValue (hsound.poolValue_le_greatest hlive) hafter
  have hgrowth := hm.poolValue_credit_le h hj hl hl0 hlive
  set S : ℝ := (m.poolValue : ℝ)
  set S' : ℝ := ((m.credit j (m.scale * l) payment).poolValue : ℝ)
  have hlog : Real.log (S' / 10 ^ 9) ≤
      1002 / 10 ^ 12 + (Real.log (S / 10 ^ 9) + m.charge payment / 10 ^ 9) :=
    calc Real.log (S' / 10 ^ 9)
        ≤ Real.log ((1 + 1002 / 10 ^ 12) *
            (S / 10 ^ 9 * Real.exp (m.charge payment / 10 ^ 9))) := by
          apply Real.log_le_log (by positivity)
          rw [div_le_iff₀ (by norm_num)]
          linarith
      _ = Real.log (1 + 1002 / 10 ^ 12) +
            (Real.log (S / 10 ^ 9) + m.charge payment / 10 ^ 9) := by
          rw [log_mul_mul_exp (by norm_num) (by positivity)]
      _ ≤ 1002 / 10 ^ 12 + (Real.log (S / 10 ^ 9) + m.charge payment / 10 ^ 9) := by
          have := Real.log_le_sub_one_of_pos (by norm_num : (0 : ℝ) < 1 + 1002 / 10 ^ 12)
          linarith
  have hreal : ((after : Int) : ℝ) < (before + m.charge payment + 3 : Int) := by
    push_cast
    linarith
  have : after < before + m.charge payment + 3 := by exact_mod_cast hreal
  omega

/-- The logarithm of the pool grows by no less than the payment without four units. -/
theorem le_ln_credit (h : m.Sound) (hj : j < m.outcomes) (hm : m.Minted j payment shares)
    (hl : ln (m.argument j payment) = .ok l) (hl0 : 0 ≤ l)
    (hlive : (m.credit j (m.scale * l) payment).Live) {before after : Int}
    (hbefore : ln m.poolValue = .ok before)
    (hafter : ln (m.credit j (m.scale * l) payment).poolValue = .ok after) :
    before + m.charge payment ≤ after + 4 := by
  have hsound := h.credit hj hl0 payment
  have hS := h.cast_poolValue_pos
  have hhigh := ln_upper h.one_le_poolValue (h.poolValue_le_greatest hm.live) hbefore
  have hlow := ln_lower (le_trans (by decide) hsound.one_le_poolValue)
    (hsound.poolValue_le_greatest hlive) hafter
  have hgrowth := hm.lt_poolValue_credit h hj hl hl0 hlive
  set S : ℝ := (m.poolValue : ℝ)
  set S' : ℝ := ((m.credit j (m.scale * l) payment).poolValue : ℝ)
  have hlog : Real.log (S / 10 ^ 9) + m.charge payment / 10 ^ 9 - 37 / 10 ^ 10 ≤
      Real.log (S' / 10 ^ 9) :=
    calc Real.log (S / 10 ^ 9) + m.charge payment / 10 ^ 9 - 37 / 10 ^ 10
        ≤ Real.log (1 - 36 / 10 ^ 10) +
            (Real.log (S / 10 ^ 9) + m.charge payment / 10 ^ 9) := by
          have := Real.one_sub_inv_le_log_of_pos (by norm_num : (0 : ℝ) < 1 - 36 / 10 ^ 10)
          norm_num at this ⊢
          linarith
      _ = Real.log ((1 - 36 / 10 ^ 10) *
            (S / 10 ^ 9 * Real.exp (m.charge payment / 10 ^ 9))) := by
          rw [log_mul_mul_exp (by norm_num) (by positivity)]
      _ ≤ Real.log (S' / 10 ^ 9) := by
          apply Real.log_le_log (by positivity)
          rw [le_div_iff₀ (by norm_num)]
          linarith
  have hreal : ((before + m.charge payment : Int) : ℝ) < (after + 5 : Int) := by
    push_cast
    linarith
  have : before + m.charge payment < after + 5 := by exact_mod_cast hreal
  omega

end Minted

/-! ## The cost -/

/-- A trade raises the cost by what is paid for it, up to six scales and two units. -/
theorem abs_cost_sub_payment_le {m after : Market} (h : m.Sound) {i : Number}
    {payment shares c₀ c₁ : Int} (hbefore : m.cost = .ok c₀)
    (hbuy : m.buy i payment = (.ok shares, after)) (hafter : after.cost = .ok c₁) :
    10 ^ 9 * |(c₁ - c₀) - payment| ≤ 6 * m.scale + 2 * 10 ^ 9 := by
  obtain ⟨j, l, -, hj, hm, hl, hlow, -, -, rfl⟩ := h.trade hbuy
  have hl0 : 0 ≤ l := by omega
  have hpos := h.scale_pos
  have hsound := h.credit hj hl0 payment
  obtain ⟨-, l₀, hl₀, hl₀low, rfl⟩ := h.cost_eq_ok hbefore
  obtain ⟨hlive, l₁, hl₁, hl₁low, rfl⟩ := hsound.cost_eq_ok hafter
  rw [credit_scale]
  obtain ⟨hchargelow, hchargehigh⟩ := h.scale_mul_charge (le_of_lt hm.payment_pos)
  -- the logarithms differ by the payment, and the scale carries that over to the amounts
  have hupper := Int.mul_le_mul_of_nonneg_left
    (hm.ln_credit_le h hj hl hl0 hlive hl₀ hl₁) (le_of_lt hpos)
  have hlower := Int.mul_le_mul_of_nonneg_left
    (hm.le_ln_credit h hj hl hl0 hlive hl₀ hl₁) (le_of_lt hpos)
  simp only [mul_add] at hupper hlower
  have h₀ : 0 ≤ m.scale * l₀ := mul_nonneg (le_of_lt hpos) (by omega)
  have h₁ : 0 ≤ m.scale * l₁ := mul_nonneg (le_of_lt hpos) (by omega)
  rw [Int.tdiv_eq_ediv_of_nonneg h₀, Int.tdiv_eq_ediv_of_nonneg h₁]
  have hone : one = 1000000000 := rfl
  rw [hone] at hchargelow hchargehigh ⊢
  rcases abs_cases (m.scale * l₁ / 1000000000 - m.scale * l₀ / 1000000000 - payment) with
    ⟨habs, -⟩ | ⟨habs, -⟩
  · rw [habs]
    omega
  · rw [habs]
    omega

/-- A market of three outcomes whose one supply is no multiple of the scale. -/
def lopsided : Market where
  label := Text.ofString "lopsided"
  admin := Text.ofString "admin"
  outcomes := 3
  scale := 1000
  openedAt := 0
  resolveAt := 3600
  supplies := (Vector.replicate maxOutcomes 0).set 1 1234567890123
  reserves := Vector.replicate maxOutcomes 0

theorem abs_cost_sub_payment_le_lopsided :
    lopsided.Sound ∧ lopsided.cost = .ok 1693 ∧
      lopsided.buy 1 800 = (.ok 1077970313000, lopsided.credit 1 1077970313000 800) ∧
      (lopsided.credit 1 1077970313000 800).cost = .ok 2493 ∧
      10 ^ 9 * |((2493 - 1693) - 800 : Int)| ≤ 6 * lopsided.scale + 2 * 10 ^ 9 := by
  have hsound : lopsided.Sound := by decide +kernel
  have hbefore : lopsided.cost = .ok 1693 := by cbv
  have hbuy : lopsided.buy 1 800 = (.ok 1077970313000, lopsided.credit 1 1077970313000 800) := by
    cbv
  have hafter : (lopsided.credit 1 1077970313000 800).cost = .ok 2493 := by cbv
  exact ⟨hsound, hbefore, hbuy, hafter, abs_cost_sub_payment_le hsound hbefore hbuy hafter⟩

end PredictionMarket.Market
