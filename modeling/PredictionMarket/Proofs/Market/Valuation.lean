import PredictionMarket.Market.Snapshot
import PredictionMarket.Market.Trade
import PredictionMarket.Proofs.Market.Mint

/-!
# When a market can be valued

Cost, prices and greatest loss of a sound market hang on two conditions.  The
market has to be live, and where cost and loss are concerned its scale has to be
small enough; a market that ever minted has such a scale.

* `Sound.cost_ok`, `Sound.prices_ok` and `Sound.worstCaseLoss_ok` give the values
  under these conditions.
* `Sound.cost_of_not_live` and `Sound.prices_of_not_live` say that there is no
  other answer than an overflow without the first.
* `cost_eq_ok` and `Sound.cost_eq_ok` tell what a cost is made of.
-/

namespace PredictionMarket.Market

open FixedPoint

/-- The scale is small enough for the least mint to fit. -/
def Modest (m : Market) : Prop := 693147180 * m.scale ≤ Width.u64.greatest

theorem Sound.poolValue_le_greatest {m : Market} (h : m.Sound) (hlive : m.Live) :
    m.poolValue ≤ Width.u128.greatest :=
  (h.poolValue_le hlive).trans (by decide)

/-- The logarithm of the pool of a live market. -/
theorem Sound.ln_poolValue {m : Market} (h : m.Sound) (hlive : m.Live) :
    ∃ l, ln m.poolValue = .ok l ∧ 693147180 ≤ l ∧ l ≤ 70000000000 := by
  have htwo := h.two_mul_one_le
  have hone := h.one_le_poolValue
  have hle := h.poolValue_le_greatest hlive
  obtain ⟨l, hl⟩ := ln_ok (le_trans (by decide) hone) hle
  exact ⟨l, hl, ln_two_le htwo hle hl, ln_le_seventy hone hle hl⟩

/-- The definition of the cost of a market that has room for its outcomes. -/
theorem cost_eq {m : Market} (hroom : m.outcomes ≤ maxOutcomes) (hscale : 0 < m.scale) :
    m.cost = m.pool >>= fun sum => ln sum >>= fun l => Width.i128.mul m.scale l >>= fun scaled =>
      Width.u64.confine (scaled.tdiv one) := by
  rw [cost, if_neg (not_lt.mpr hroom), if_neg (not_le.mpr hscale)]

/-- The definition of the prices of a market that has room for its outcomes. -/
theorem prices_eq {m : Market} (hroom : m.outcomes ≤ maxOutcomes) (hscale : 0 < m.scale) :
    m.prices = total (m.ratios.map expValue) >>= fun sum =>
      if sum = 0 then .ok ((m.ratios.map expValue).map fun _ => 0)
      else if ∀ e ∈ m.ratios.map expValue, Width.u128.Fits (e * one) then
        .ok (Apportionment.apportion one sum (m.ratios.map expValue))
      else .error .mathOverflow := by
  rw [prices, if_neg (not_lt.mpr hroom), if_neg (not_le.mpr hscale), exponentials_eq, ok_bind]

/-- The total of the exponentials is the pool. -/
theorem total_eq_pool (m : Market) : total (m.ratios.map expValue) = m.pool := by
  rw [pool, exponentials_eq, ok_bind]

theorem Sound.cost_of_not_live {m : Market} (h : m.Sound) (hlive : ¬ m.Live) :
    m.cost = .error .mathOverflow := by
  rw [cost_eq h.outcomes_le h.scale_pos, h.pool_of_not_live hlive, error_bind]

theorem Sound.prices_of_not_live {m : Market} (h : m.Sound) (hlive : ¬ m.Live) :
    m.prices = .error .mathOverflow := by
  rw [prices_eq h.outcomes_le h.scale_pos, total_eq_pool, h.pool_of_not_live hlive, error_bind]

/-- What a cost is made of, whatever the supplies are. -/
theorem cost_eq_ok {m : Market} (hroom : m.outcomes ≤ maxOutcomes) (hscale : 0 < m.scale) {c : Int}
    (hc : m.cost = .ok c) :
    m.pool = .ok m.poolValue ∧
      ∃ l, ln m.poolValue = .ok l ∧ 0 ≤ c ∧ c = (m.scale * l).tdiv one := by
  rw [cost_eq hroom hscale] at hc
  obtain ⟨sum, hpool, hc⟩ := bind_eq_ok_iff.mp hc
  obtain ⟨-, rfl⟩ := Width.confine_eq_ok_iff.mp (m.pool_eq.symm.trans hpool)
  obtain ⟨l, hl, hc⟩ := bind_eq_ok_iff.mp hc
  obtain ⟨scaled, hscaled, hc⟩ := bind_eq_ok_iff.mp hc
  obtain ⟨-, rfl⟩ := Width.mul_eq_ok_iff.mp hscaled
  obtain ⟨hfits, rfl⟩ := Width.confine_eq_ok_iff.mp hc
  exact ⟨hpool, l, hl, hfits.1, rfl⟩

/-- What the cost of a sound market is made of. -/
theorem Sound.cost_eq_ok {m : Market} (h : m.Sound) {c : Int} (hc : m.cost = .ok c) :
    m.Live ∧ ∃ l, ln m.poolValue = .ok l ∧ 693147180 ≤ l ∧ c = (m.scale * l).tdiv one := by
  obtain ⟨hpool, l, hl, -, rfl⟩ := Market.cost_eq_ok h.outcomes_le h.scale_pos hc
  obtain ⟨hlive, -⟩ := h.live_of_pool hpool
  obtain ⟨l', hl', hlow, -⟩ := h.ln_poolValue hlive
  obtain rfl : l' = l := Except.ok.inj (hl'.symm.trans hl)
  exact ⟨hlive, l', hl, hlow, rfl⟩

/-- The product of a modest scale and a logarithm fits, and so does the amount
that it makes. -/
theorem Modest.fits {m : Market} (hmodest : m.Modest) (hscale : 0 < m.scale) {l : Int}
    (h0 : 0 ≤ l) (hl : l ≤ 70000000000) :
    Width.i128.Fits (m.scale * l) ∧ Width.u64.Fits ((m.scale * l).tdiv one) := by
  have hmax : Width.u64.greatest = 18446744073709551615 := rfl
  rw [Modest, hmax] at hmodest
  have hsmall : m.scale ≤ 26700000000 := by omega
  have hprod0 : 0 ≤ m.scale * l := mul_nonneg (le_of_lt hscale) h0
  have hprod : m.scale * l ≤ 26700000000 * 70000000000 :=
    Int.mul_le_mul hsmall hl h0 (by norm_num)
  refine ⟨⟨?_, ?_⟩, ⟨?_, ?_⟩⟩
  · exact le_trans (by decide) hprod0
  · exact hprod.trans (by decide)
  · exact Int.tdiv_nonneg hprod0 (le_of_lt FixedPoint.one_pos)
  · rw [Int.tdiv_eq_ediv_of_nonneg hprod0]
    apply Int.ediv_le_of_le_mul FixedPoint.one_pos
    exact hprod.trans (by decide)

theorem Sound.cost_ok {m : Market} (h : m.Sound) (hlive : m.Live) (hmodest : m.Modest) :
    ∃ c, m.cost = .ok c := by
  obtain ⟨l, hl, hlow, hhigh⟩ := h.ln_poolValue hlive
  obtain ⟨hprod, hquot⟩ := hmodest.fits h.scale_pos (by omega) hhigh
  refine ⟨(m.scale * l).tdiv one, ?_⟩
  rw [cost_eq h.outcomes_le h.scale_pos, h.pool_of_live hlive, ok_bind, hl, ok_bind,
    Width.mul_eq_ok_iff.mpr ⟨hprod, rfl⟩, ok_bind, Width.confine_of_fits hquot]

/-- A live market has a price for each of its outcomes. -/
theorem Sound.prices_ok {m : Market} (h : m.Sound) (hlive : m.Live) :
    ∃ ps, m.prices = .ok ps ∧ ps.length = m.outcomes := by
  have hne : m.poolValue ≠ 0 := by
    have htwo := h.two_mul_one_le
    have hpos := FixedPoint.one_pos
    omega
  have hfits : ∀ e ∈ m.ratios.map expValue, Width.u128.Fits (e * one) := by
    intro e he
    obtain ⟨x, hx, rfl⟩ := List.mem_map.mp he
    have hle := expValue_le_of_le_limit (h.ratio_nonneg hx) (hlive x hx)
    have hmul := Int.mul_le_mul_of_nonneg_right hle (le_of_lt FixedPoint.one_pos)
    exact ⟨mul_nonneg (expValue_nonneg x) (le_of_lt FixedPoint.one_pos),
      hmul.trans (by decide)⟩
  refine ⟨Apportionment.apportion one m.poolValue (m.ratios.map expValue), ?_, ?_⟩
  · rw [prices_eq h.outcomes_le h.scale_pos, total_eq_pool, h.pool_of_live hlive, ok_bind,
      if_neg hne, if_pos hfits]
  · rw [Apportionment.length_apportion, List.length_map, length_ratios h.outcomes_le]

/-- The number of outcomes, as a fixed-point number, is an argument for `ln`. -/
theorem Sound.outcomes_mul_one_bounds {m : Market} (h : m.Sound) :
    2 * one ≤ m.outcomes * one ∧ m.outcomes * one ≤ Width.u128.greatest := by
  have hlow : (2 : Int) ≤ m.outcomes := by exact_mod_cast h.le_outcomes
  have hhigh : (m.outcomes : Int) ≤ 16 := by exact_mod_cast h.outcomes_le
  refine ⟨Int.mul_le_mul_of_nonneg_right hlow (le_of_lt FixedPoint.one_pos), ?_⟩
  have hsixteen := Int.mul_le_mul_of_nonneg_right hhigh (le_of_lt FixedPoint.one_pos)
  exact hsixteen.trans (by decide)

/-- A sound market has a number of outcomes that may be asked for. -/
theorem Sound.outcomeCount_eq {m : Market} (h : m.Sound) :
    outcomeCount (Number.ofInt m.outcomes) = .ok m.outcomes := by
  have hlow := h.le_outcomes
  have hhigh := h.outcomes_le
  rw [outcomeCount, Number.whole?_ofInt]
  simp only
  rw [if_neg (by exact_mod_cast not_lt.mpr hlow), if_neg (by exact_mod_cast not_lt.mpr hhigh)]
  rfl

/-- The greatest loss of a sound market, and the logarithm that it is made of.  The scale
may have twenty digits. -/
theorem Sound.worstCaseLoss_of_scale_le {m : Market} (h : m.Sound)
    (hscale : m.scale ≤ 30000000000000000000) :
    ∃ l, ln (m.outcomes * one) = .ok l ∧ 0 ≤ l ∧
      worstCaseLoss m.scale (Number.ofInt m.outcomes) = .ok ((m.scale * l).tdiv one) := by
  obtain ⟨htwo, hle⟩ := h.outcomes_mul_one_bounds
  have hone : one ≤ m.outcomes * one := le_trans (by decide) htwo
  obtain ⟨l, hl⟩ := ln_ok (le_trans (by decide) hone) hle
  have h0 := ln_two_le htwo hle hl
  have hprod : m.scale * l ≤ 30000000000000000000 * 70000000000 :=
    Int.mul_le_mul hscale (ln_le_seventy hone hle hl) (by omega) (by norm_num)
  have hfits : Width.i128.Fits (m.scale * l) :=
    ⟨le_trans (by decide) (mul_nonneg h.scale_pos.le (by omega)), hprod.trans (by decide)⟩
  refine ⟨l, hl, by omega, ?_⟩
  rw [worstCaseLoss, if_neg (not_le.mpr h.scale_pos), h.outcomeCount_eq, ok_bind, hl, ok_bind,
    Width.mul_eq_ok_iff.mpr ⟨hfits, rfl⟩, ok_bind]
  rfl

/-- A sound market of modest scale has a greatest loss. -/
theorem Sound.worstCaseLoss_ok {m : Market} (h : m.Sound) (hmodest : m.Modest) :
    ∃ l, ln (m.outcomes * one) = .ok l ∧ 0 ≤ l ∧
      worstCaseLoss m.scale (Number.ofInt m.outcomes) = .ok ((m.scale * l).tdiv one) := by
  have hmax : Width.u64.greatest = 18446744073709551615 := rfl
  rw [Modest, hmax] at hmodest
  exact h.worstCaseLoss_of_scale_le (by omega)

theorem Minted.modest {m : Market} {j : Fin maxOutcomes} {payment shares : Int} (h : m.Sound)
    (hj : j < m.outcomes) (hm : m.Minted j payment shares) : m.Modest :=
  hm.scale_le h hj

/-! ## Prices and snapshots -/

/-- The price of an outcome is its entry in the list of all prices. -/
theorem price_eq_ok_iff {m : Market} {i : Number} {p : Int} :
    m.price i = .ok p ↔
      ∃ j ps, m.outcome i = .ok j ∧ m.prices = .ok ps ∧ p = ps.getD j 0 := by
  rw [price]
  constructor
  · intro h
    obtain ⟨j, hj, h⟩ := bind_eq_ok_iff.mp h
    obtain ⟨ps, hps, h⟩ := bind_eq_ok_iff.mp h
    exact ⟨j, ps, hj, hps, (Except.ok.inj h).symm⟩
  · rintro ⟨j, ps, hj, hps, rfl⟩
    rw [hj, ok_bind, hps, ok_bind]
    rfl

/-- A list of prices has one for every outcome. -/
theorem Sound.length_prices {m : Market} (h : m.Sound) {ps : List Int}
    (hps : m.prices = .ok ps) : ps.length = m.outcomes := by
  by_cases hlive : m.Live
  · obtain ⟨ps', hps', hlength⟩ := h.prices_ok hlive
    rw [hps] at hps'
    rwa [Except.ok.inj hps']
  · rw [h.prices_of_not_live hlive] at hps
    exact absurd hps (by simp)

/-- The price of an outcome stands at its index in every list of prices. -/
theorem Sound.getElem?_prices {m : Market} (h : m.Sound) {i : Number} {j : Fin maxOutcomes}
    {p : Int} {ps : List Int} (hj : m.outcome i = .ok j) (hps : m.prices = .ok ps)
    (hp : m.price i = .ok p) : ps[j.val]? = some p := by
  obtain ⟨j', ps', hj', hps', rfl⟩ := price_eq_ok_iff.mp hp
  rw [hj] at hj'
  rw [hps] at hps'
  obtain rfl := Except.ok.inj hj'
  obtain rfl := Except.ok.inj hps'
  have hlt : j.val < ps.length := by
    rw [h.length_prices hps]
    exact (outcome_eq_ok hj).2
  rw [List.getD_eq_getElem?_getD, List.getElem?_eq_getElem hlt, Option.getD_some]

/-- A preview is a trade with cost and price on both sides. -/
theorem quote_eq_ok_iff {m : Market} {i : Number} {payment : Int} {q : Quote} :
    m.quote i payment = .ok q ↔
      ∃ after, m.price i = .ok q.priceBefore ∧ m.cost = .ok q.costBefore ∧
        m.buy i payment = (.ok q.sharesOut, after) ∧ after.price i = .ok q.priceAfter ∧
        after.cost = .ok q.costAfter := by
  rw [quote]
  constructor
  · intro h
    obtain ⟨priceBefore, hpriceBefore, h⟩ := bind_eq_ok_iff.mp h
    obtain ⟨costBefore, hcostBefore, h⟩ := bind_eq_ok_iff.mp h
    obtain ⟨shares, hshares, h⟩ := bind_eq_ok_iff.mp h
    obtain ⟨priceAfter, hpriceAfter, h⟩ := bind_eq_ok_iff.mp h
    obtain ⟨costAfter, hcostAfter, h⟩ := bind_eq_ok_iff.mp h
    obtain rfl := Except.ok.inj h
    exact ⟨(m.buy i payment).2, hpriceBefore, hcostBefore, Prod.ext hshares rfl, hpriceAfter,
      hcostAfter⟩
  · rintro ⟨after, hpriceBefore, hcostBefore, hbuy, hpriceAfter, hcostAfter⟩
    rw [hpriceBefore, ok_bind, hcostBefore, ok_bind, hbuy]
    show (after.price i >>= fun _ => _) = _
    rw [hpriceAfter, ok_bind, hcostAfter, ok_bind]
    rfl

/-- A live market of modest scale can be shown. -/
theorem Sound.snapshot_ok {m : Market} (h : m.Sound) (hlive : m.Live) (hmodest : m.Modest) :
    ∃ shown, m.snapshot = .ok shown ∧ m.cost = .ok shown.cost ∧ m.prices = .ok shown.prices := by
  obtain ⟨c, hc⟩ := h.cost_ok hlive hmodest
  obtain ⟨ps, hps, -⟩ := h.prices_ok hlive
  obtain ⟨l, -, -, hloss⟩ := h.worstCaseLoss_ok hmodest
  refine ⟨⟨m, c, ps, (m.scale * l).tdiv one⟩, ?_, hc, hps⟩
  rw [snapshot, hc, ok_bind, hps, ok_bind, hloss, ok_bind]
  rfl

end PredictionMarket.Market
