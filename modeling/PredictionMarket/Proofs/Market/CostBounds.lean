import Mathlib
import PredictionMarket.Proofs.FixedPoint.LnOrder
import PredictionMarket.Proofs.Market.BoundedLoss
import PredictionMarket.Proofs.Market.Liveness

/-!
# The cost between the largest payout and the subsidy

The cost is the scale times the logarithm of a sum of exponentials.  Such a logarithm
lies between the largest exponent and that plus the logarithm of the number of terms, so
the cost covers what the largest supply pays out and exceeds it by no more than the
greatest loss.

With roundings neither side is free.  From below, the ratio, its exponential and the
logarithm are all rounded down, and what makes up for it is the exponential of another
outcome, at least one.  It adds two units to the largest logarithm possible, and
`unit_add_le_log` shows that this is just enough.  From above, `ln_le_ln_count_add`
compares the two rounded logarithms.

`Sound.supply_le_scale_mul` and `Sound.scale_mul_le` are the two sides, on the scaled
logarithm of the pool.
-/

namespace PredictionMarket.Market

open FixedPoint

/-! ## From below -/

/-- The logarithm of an exponential and one is above the exponent by more than a unit. -/
theorem unit_add_le_log {x : Int} (h0 : 0 ≤ x) (h : x ≤ expLimit) :
    x + (1 + 2 / 10 ^ 6) ≤ 10 ^ 9 * Real.log ((expValue x + one : Int) / 10 ^ 9) := by
  have hgrown := lt_expValue h0 h
  have hlimit : Real.exp (x / 10 ^ 9) ≤ 5 * 10 ^ 8 := by
    refine (Real.exp_le_exp.mpr ?_).trans exp_twenty_le
    have hx : (x : ℝ) ≤ 20000000000 := by exact_mod_cast h
    rw [div_le_iff₀ (by norm_num)]
    linarith
  -- one unit is two parts in `10 ^ 9` of the greatest exponential
  have hsum : Real.exp (x / 10 ^ 9) * (1 + 19 / 10 ^ 10) ≤
      (expValue x + one : Int) / 10 ^ 9 := by
    rw [le_div_iff₀ (by norm_num)]
    push_cast
    rw [cast_one]
    linarith
  have hpart := Real.one_sub_inv_le_log_of_pos (by norm_num : (0 : ℝ) < 1 + 19 / 10 ^ 10)
  norm_num at hpart
  have hlog : (x : ℝ) / 10 ^ 9 + Real.log (1 + 19 / 10 ^ 10) ≤
      Real.log ((expValue x + one : Int) / 10 ^ 9) :=
    calc (x : ℝ) / 10 ^ 9 + Real.log (1 + 19 / 10 ^ 10)
        = Real.log (Real.exp (x / 10 ^ 9) * (1 + 19 / 10 ^ 10)) := by
          rw [Real.log_mul (Real.exp_ne_zero _) (by norm_num), Real.log_exp]
      _ ≤ Real.log ((expValue x + one : Int) / 10 ^ 9) :=
          Real.log_le_log (by positivity) hsum
  norm_num at hlog ⊢
  linarith

/-- Every ratio is below the logarithm of the pool by a whole unit. -/
theorem Sound.ratio_lt_ln {m : Market} (h : m.Sound) (hlive : m.Live) {x l : Int}
    (hx : x ∈ m.ratios) (hl : ln m.poolValue = .ok l) : x < l := by
  have hx0 := h.ratio_nonneg hx
  have hlower := ln_lower (le_trans (by decide) h.one_le_poolValue)
    (h.poolValue_le_greatest hlive) hl
  have hunit := unit_add_le_log hx0 (hlive x hx)
  have hpool : Real.log ((expValue x + one : Int) / 10 ^ 9) ≤
      Real.log (m.poolValue / 10 ^ 9) := by
    have hpos : (0 : ℝ) < (expValue x + one : Int) := by
      exact_mod_cast add_pos (expValue_pos hx0) FixedPoint.one_pos
    have hle : ((expValue x + one : Int) : ℝ) ≤ m.poolValue := by
      exact_mod_cast h.expValue_add_one_le hx
    exact Real.log_le_log (by positivity) (by gcongr)
  have hreal : (x : ℝ) < l := by linarith
  exact_mod_cast hreal

/-- No supply exceeds the scaled logarithm of the pool. -/
theorem Sound.supply_le_scale_mul {m : Market} (h : m.Sound) (hlive : m.Live) {s l : Int}
    (hs : s ∈ m.activeSupplies) (hl : ln m.poolValue = .ok l) : s ≤ m.scale * l := by
  have hratio := h.ratio_lt_ln hlive (List.mem_map_of_mem hs) hl
  rw [Int.tdiv_eq_ediv_of_nonneg (h.supplies_nonneg s hs)] at hratio
  have hmul := Int.mul_le_mul_of_nonneg_left (Int.add_one_le_iff.mpr hratio) h.scale_pos.le
  have hround := Int.lt_mul_ediv_self_add (x := s) h.scale_pos
  rw [mul_add, mul_one] at hmul
  omega

/-! ## From above -/

/-- The mass is no more than the largest exponential for every outcome. -/
theorem Sound.mass_le {m : Market} (h : m.Sound) {top : Int} (htop : ∀ x ∈ m.ratios, x ≤ top) :
    m.mass ≤ m.outcomes * Real.exp (top / 10 ^ 9) := by
  have hle : ∀ e ∈ m.ratios.map exactExp, e ≤ Real.exp (top / 10 ^ 9) := by
    intro e he
    obtain ⟨x, hx, rfl⟩ := List.mem_map.mp he
    have hx' : (x : ℝ) ≤ top := by exact_mod_cast htop x hx
    rw [exactExp_eq]
    gcongr
  have hcard := List.sum_le_card_nsmul (m.ratios.map exactExp) _ hle
  rwa [List.length_map, length_ratios h.outcomes_le, nsmul_eq_mul] at hcard

/-- The logarithm of the pool exceeds the largest ratio by no more than that of the number
of outcomes. -/
theorem Sound.ln_poolValue_le {m : Market} (h : m.Sound) (hlive : m.Live) {top l count : Int}
    (htop : ∀ x ∈ m.ratios, x ≤ top) (h0 : 0 ≤ top) (hl : ln m.poolValue = .ok l)
    (hcount : ln (m.outcomes * one) = .ok count) : l ≤ count + top := by
  have hpool := h.cast_poolValue_pos
  have hn : (0 : ℝ) < m.outcomes := by
    exact_mod_cast lt_of_lt_of_le (by decide : 0 < minOutcomes) h.le_outcomes
  refine ln_le_ln_count_add h.le_outcomes h.outcomes_le (le_trans (by decide) h.one_le_poolValue)
    (h.poolValue_le_greatest hlive) h0 hl hcount ?_
  have hmass : (m.poolValue : ℝ) / 10 ^ 9 ≤ m.outcomes * Real.exp (top / 10 ^ 9) := by
    refine le_trans ?_ (h.mass_le htop)
    rw [div_le_iff₀ (by norm_num), mul_comm]
    exact h.poolValue_le_mass hlive
  have hlog := Real.log_le_log (by positivity) hmass
  rw [Real.log_mul hn.ne' (Real.exp_ne_zero _), Real.log_exp] at hlog
  linarith

/-- The scaled logarithm of the pool exceeds the largest supply by no more than the scaled
logarithm of the number of outcomes. -/
theorem Sound.scale_mul_le {m : Market} (h : m.Sound) (hlive : m.Live) {top l count : Int}
    (hmem : top ∈ m.activeSupplies) (htop : ∀ s ∈ m.activeSupplies, s ≤ top)
    (hl : ln m.poolValue = .ok l) (hcount : ln (m.outcomes * one) = .ok count) :
    m.scale * l ≤ m.scale * count + top := by
  have hpos := h.scale_pos
  have htop0 := h.supplies_nonneg top hmem
  have hratios : ∀ x ∈ m.ratios, x ≤ top / m.scale := by
    intro x hx
    obtain ⟨s, hs, rfl⟩ := List.mem_map.mp hx
    rw [Int.tdiv_eq_ediv_of_nonneg (h.supplies_nonneg s hs)]
    exact Int.ediv_le_ediv hpos (htop s hs)
  have hln := h.ln_poolValue_le hlive hratios (Int.ediv_nonneg htop0 hpos.le) hl hcount
  calc m.scale * l ≤ m.scale * (count + top / m.scale) := Int.mul_le_mul_of_nonneg_left hln hpos.le
    _ = m.scale * count + m.scale * (top / m.scale) := mul_add _ _ _
    _ ≤ m.scale * count + top := by
        have := Int.mul_ediv_self_le (x := top) (ne_of_gt hpos)
        omega

/-! ## The cost -/

/-- The cost covers what the largest supply pays out, and exceeds it by no more than the
greatest loss and a unit. -/
theorem cost_bounds {m : Market} (h : m.Sound) {c : Int} (hc : m.cost = .ok c) :
    (∀ j : Fin maxOutcomes, j < m.outcomes → m.supplies.get j / one ≤ c) ∧
      ∃ top loss, m.activeSupplies.max? = some top ∧
        worstCaseLoss m.scale (Number.ofInt m.outcomes) = .ok loss ∧ c ≤ top / one + loss + 1 := by
  obtain ⟨hlive, l, hl, hlow, rfl⟩ := h.cost_eq_ok hc
  obtain ⟨count, hcount, hloss⟩ := h.worstCaseLoss_of_cost hc
  have hprod0 : 0 ≤ m.scale * l := mul_nonneg h.scale_pos.le (by omega)
  rw [Int.tdiv_eq_ediv_of_nonneg hprod0]
  constructor
  · intro j hj
    exact Int.ediv_le_ediv FixedPoint.one_pos (h.supply_le_scale_mul hlive (m.supply_mem hj) hl)
  · obtain ⟨top, htop⟩ : ∃ top, m.activeSupplies.max? = some top := by
      apply Option.isSome_iff_exists.mp
      rw [List.isSome_max?_iff]
      have hlen := length_activeSupplies h.outcomes_le
      have htwo : 2 ≤ m.outcomes := h.le_outcomes
      intro hnil
      rw [hnil, List.length_nil] at hlen
      omega
    obtain ⟨hmem, hle⟩ := List.max?_eq_some_iff.mp htop
    have hupper := h.scale_mul_le hlive hmem hle hl hcount
    refine ⟨top, _, htop, hloss, ?_⟩
    simp only [one] at hupper ⊢
    omega

/-- There is room for a second outcome. -/
theorem one_lt_maxOutcomes : 1 < maxOutcomes := by decide

/-- A market of three outcomes, one of which is near the limit of the exponential.  No
supply is a multiple of the scale. -/
def brimful : Market where
  label := Text.ofString "brimful"
  admin := Text.ofString "admin"
  outcomes := 3
  scale := 700000000
  openedAt := 0
  resolveAt := 3600
  supplies := ((Vector.replicate maxOutcomes 0).set 1 13999999999299999999
    one_lt_maxOutcomes).set 2 5
  reserves := Vector.replicate maxOutcomes 0

theorem cost_bounds_brimful :
    brimful.Sound ∧ brimful.cost = .ok 14000000001 ∧
      (∀ j : Fin maxOutcomes, j < brimful.outcomes →
        brimful.supplies.get j / one ≤ 14000000001) ∧
      ∃ top loss, brimful.activeSupplies.max? = some top ∧
        worstCaseLoss brimful.scale (Number.ofInt brimful.outcomes) = .ok loss ∧
          14000000001 ≤ top / one + loss + 1 := by
  have hsound : brimful.Sound := by decide +kernel
  have hcost : brimful.cost = .ok 14000000001 := by decide +kernel
  exact ⟨hsound, hcost, cost_bounds hsound hcost⟩

end PredictionMarket.Market
