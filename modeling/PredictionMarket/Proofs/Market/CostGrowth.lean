import Mathlib
import PredictionMarket.Proofs.FixedPoint.LnOrder
import PredictionMarket.Proofs.Market.BoundedLoss
import PredictionMarket.Proofs.Market.CostTracking
import PredictionMarket.Proofs.Market.Liveness

/-!
# The growth of the cost

In exact arithmetic every trade raises the cost.  Here the cost is rounded down at the
end of a chain of roundings, and what a small payment adds can be lost in them, so that the
cost stands still.  What remains true is that it never falls.

* Every mint adds nearly the exponential of the outcome to the pool
  (`Sound.poolValue_add_le_credit`), which its logarithm cannot overlook
  (`Sound.ln_poolValue_le_credit`).
* `Sound.cost_growth` is the step: the cost does not fall, and it grows if the payment is
  above one unit by five scales, with nine places, or by less where the cost before had
  lost more.
* `Regular.cost_growth_executeAll` carries it through a run.
-/

namespace PredictionMarket.Market

open FixedPoint

/-! ## The pool -/

/-- A trade adds nearly one unit, with nine places, to the pool. -/
theorem Sound.poolValue_add_le_credit {m : Market} (h : m.Sound) {j : Fin maxOutcomes}
    (hj : j < m.outcomes) (hlive : m.Live) {l : Int} (hl : 693147180 ≤ l) (payment : Int)
    (hafter : (m.credit j (m.scale * l) payment).Live) :
    (m.poolValue : ℝ) + 9 * 10 ^ 8 ≤ (m.credit j (m.scale * l) payment).poolValue := by
  have hl0 : 0 ≤ l := by omega
  have hx := h.own_nonneg hj
  have hexact := expValue_le hx (hlive _ (m.ratio_mem hj))
  have hgrown := lt_expValue (add_nonneg hx hl0) (hafter _ (h.ratio_add_mem hj hl0 payment))
  rw [exp_add_ratio, ← exactExp_eq l] at hgrown
  have hown : (10 : ℝ) ^ 9 ≤ expValue (m.ratio j) := by
    rw [← cast_one]
    exact_mod_cast one_le_expValue hx
  have hmint := le_exactExp hl
  have hdouble : (expValue (m.ratio j) : ℝ) * (199 / 100) * (1 - 3 / 10 ^ 15) <
      expValue (m.ratio j + l) + 1 := by
    refine lt_of_le_of_lt ?_ hgrown
    gcongr
  rw [h.poolValue_credit hj hl0]
  push_cast
  linarith

/-- The logarithm of the pool does not go down with a trade. -/
theorem Sound.ln_poolValue_le_credit {m : Market} (h : m.Sound) {j : Fin maxOutcomes}
    (hj : j < m.outcomes) (hlive : m.Live) {l : Int} (hl : 693147180 ≤ l) (payment : Int)
    (hafter : (m.credit j (m.scale * l) payment).Live) {l₀ l₁ : Int}
    (hl₀ : ln m.poolValue = .ok l₀)
    (hl₁ : ln (m.credit j (m.scale * l) payment).poolValue = .ok l₁) : l₀ ≤ l₁ := by
  have hsound := h.credit hj (by omega : 0 ≤ l) payment
  have hgrowth := h.poolValue_add_le_credit hj hlive hl payment hafter
  have hgap : m.poolValue + 9 * 10 ^ 8 ≤ (m.credit j (m.scale * l) payment).poolValue := by
    exact_mod_cast hgrowth
  have hroom := h.poolValue_le hlive
  refine ln_le_ln_of_growth (le_trans (by decide) h.one_le_poolValue)
    (hsound.poolValue_le_greatest hafter) hl₀ hl₁ ?_
  omega

/-! ## The cost -/

/-- The cost does not fall with a trade.  It grows if the payment, with what the rounding
had taken from the cost before, is above one unit by five scales. -/
theorem Sound.cost_growth {m after : Market} (h : m.Sound) {i : Number}
    {payment shares c₀ c₁ : Int} (hbefore : m.cost = .ok c₀)
    (hbuy : m.buy i payment = (.ok shares, after)) (hafter : after.cost = .ok c₁) :
    ∃ l, ln m.poolValue = .ok l ∧ c₀ ≤ c₁ ∧
      (10 ^ 9 + 5 * m.scale ≤ 10 ^ 9 * payment + m.scale * l % one → c₀ < c₁) := by
  obtain ⟨j, l, -, hj, hm, hl, hlow, -, -, rfl⟩ := h.trade hbuy
  have hl0 : 0 ≤ l := by omega
  have hpos := h.scale_pos
  have hsound := h.credit hj hl0 payment
  obtain ⟨-, l₀, hl₀, hl₀low, rfl⟩ := h.cost_eq_ok hbefore
  obtain ⟨hlive, l₁, hl₁, hl₁low, rfl⟩ := hsound.cost_eq_ok hafter
  rw [credit_scale, Int.tdiv_eq_ediv_of_nonneg (mul_nonneg hpos.le (by omega)),
    Int.tdiv_eq_ediv_of_nonneg (mul_nonneg hpos.le (by omega))]
  refine ⟨l₀, hl₀, ?_, ?_⟩
  · have hle := h.ln_poolValue_le_credit hj hm.live hlow payment hlive hl₀ hl₁
    exact Int.ediv_le_ediv FixedPoint.one_pos (Int.mul_le_mul_of_nonneg_left hle hpos.le)
  · intro hample
    obtain ⟨-, hcharge⟩ := h.scale_mul_charge hm.payment_pos.le
    have hscaled := Int.mul_le_mul_of_nonneg_left
      (hm.le_ln_credit h hj hl hl0 hlive hl₀ hl₁) hpos.le
    simp only [mul_add] at hscaled
    simp only [one] at hcharge hample ⊢
    omega

/-- The cost does not fall over a run, and it grows if the run carries out an order with a
payment above one unit by five scales. -/
theorem Regular.cost_growth_executeAll {m : Market} (h : m.Regular) {orders : List Order}
    {c₀ c₁ : Int} (hbefore : m.cost = .ok c₀) (hafter : (m.executeAll orders).cost = .ok c₁) :
    c₀ ≤ c₁ ∧
      ((∃ entry ∈ m.ledger orders, 10 ^ 9 + 5 * m.scale ≤ 10 ^ 9 * entry.1.payment) →
        c₀ < c₁) := by
  induction orders generalizing m c₀ with
  | nil =>
    obtain rfl : c₀ = c₁ := Except.ok.inj (hbefore.symm.trans hafter)
    refine ⟨le_rfl, ?_⟩
    rintro ⟨entry, hentry, -⟩
    exact absurd hentry List.not_mem_nil
  | cons o orders ih =>
    rw [executeAll_cons] at hafter
    rcases m.buy_refused_or_done o.outcome o.payment with ⟨e, hbuy⟩ | ⟨shares, next, hbuy⟩
    · rw [execute_of_error hbuy] at hafter
      rw [ledger_cons_of_error hbuy]
      exact ih h hbefore hafter
    · rw [execute_of_ok hbuy] at hafter
      rw [ledger_cons_of_ok hbuy]
      have hnext := h.buy hbuy
      -- the market in between has a cost, as a dead one would have stayed dead
      have hlive : next.Live := by
        by_contra hdead
        rw [hnext.sound.executeAll_of_not_live hdead, hnext.sound.cost_of_not_live hdead] at hafter
        exact absurd hafter (by simp)
      obtain ⟨j, l, -, hj, hm, -, -, -, -, rfl⟩ := h.sound.trade hbuy
      have hmodest : m.Modest := hm.modest h.sound hj
      obtain ⟨c, hc⟩ := hnext.sound.cost_ok hlive hmodest
      obtain ⟨l₀, -, hstep, hstrict⟩ := h.sound.cost_growth hbefore hbuy hc
      obtain ⟨hrest, hreststrict⟩ := ih hnext hc hafter
      refine ⟨hstep.trans hrest, ?_⟩
      rintro ⟨entry, hentry, hample⟩
      rcases List.mem_cons.mp hentry with rfl | hlater
      · have hlost : 0 ≤ m.scale * l₀ % one := Int.emod_nonneg _ (by decide)
        simp only at hample
        exact lt_of_lt_of_le (hstrict (by omega)) hrest
      · exact lt_of_le_of_lt hstep (hreststrict ⟨entry, hlater, hample⟩)

/-- Whatever a market has been through, the next trade does not lower its cost, and raises
it if the payment is above one unit by five scales, with nine places. -/
theorem cost_le_of_buy {terms : Terms} {now minDuration : Number} {opened : Market}
    (hopen : ofTerms terms now minDuration = .ok opened) (orders : List Order) {after : Market}
    {i : Number} {payment shares c₀ c₁ : Int} (hbefore : (opened.executeAll orders).cost = .ok c₀)
    (hbuy : (opened.executeAll orders).buy i payment = (.ok shares, after))
    (hafter : after.cost = .ok c₁) :
    c₀ ≤ c₁ ∧ (10 ^ 9 + 5 * terms.scale ≤ 10 ^ 9 * payment → c₀ < c₁) := by
  have hregular := ((Reachable.opened terms now minDuration hopen).executeAll orders).regular
  have hscale : (opened.executeAll orders).scale = terms.scale := by
    obtain ⟨n, -, -, rfl⟩ := ofTerms_eq_ok hopen
    exact (executeAll_outcomes_scale _ orders).2
  obtain ⟨l, -, hle, hstrict⟩ := hregular.sound.cost_growth hbefore hbuy hafter
  refine ⟨hle, fun hample => hstrict ?_⟩
  have hlost : 0 ≤ (opened.executeAll orders).scale * l % one := Int.emod_nonneg _ (by decide)
  omega

/-- A market of two outcomes and a large scale, one outcome of which has been bought for
nineteen scales. -/
def leaning : Market := (untraded 300000000).executeAll [⟨0, 5730000000⟩]

theorem cost_le_of_buy_leaning :
    ofTerms (twoWay 300000000) 0 60 = .ok (untraded 300000000) ∧
      leaning.cost = .ok 5937944154 ∧
      leaning.buy 1 4 = (.ok 543889395300000000, leaning.credit 1 543889395300000000 4) ∧
      (leaning.credit 1 543889395300000000 4).cost = .ok 5937944157 ∧
      (5937944154 : Int) < 5937944157 := by
  have hopen : ofTerms (twoWay 300000000) 0 60 = .ok (untraded 300000000) := by decide +kernel
  have hbefore : leaning.cost = .ok 5937944154 := by decide +kernel
  have hbuy : leaning.buy 1 4 =
      (.ok 543889395300000000, leaning.credit 1 543889395300000000 4) := by decide +kernel
  have hafter : (leaning.credit 1 543889395300000000 4).cost = .ok 5937944157 := by decide +kernel
  exact ⟨hopen, hbefore, hbuy, hafter,
    (cost_le_of_buy hopen [⟨0, 5730000000⟩] hbefore hbuy hafter).2 (by decide)⟩

/-- On the same market a payment of one unit mints shares and leaves the cost where it
is. -/
theorem cost_standing_still :
    ofTerms (twoWay 300000000) 0 60 = .ok (untraded 300000000) ∧
      leaning = (untraded 300000000).executeAll [⟨0, 5730000000⟩] ∧
      leaning.cost = .ok 5937944154 ∧
      leaning.buy 1 1 = (.ok 234281570700000000, leaning.credit 1 234281570700000000 1) ∧
      (leaning.credit 1 234281570700000000 1).cost = .ok 5937944154 := by
  have hopen : ofTerms (twoWay 300000000) 0 60 = .ok (untraded 300000000) := by decide +kernel
  have hbefore : leaning.cost = .ok 5937944154 := by decide +kernel
  have hbuy : leaning.buy 1 1 =
      (.ok 234281570700000000, leaning.credit 1 234281570700000000 1) := by decide +kernel
  have hafter : (leaning.credit 1 234281570700000000 1).cost = .ok 5937944154 := by decide +kernel
  exact ⟨hopen, rfl, hbefore, hbuy, hafter⟩

end PredictionMarket.Market
