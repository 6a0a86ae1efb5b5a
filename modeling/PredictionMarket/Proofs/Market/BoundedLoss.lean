import Mathlib
import PredictionMarket.Proofs.Market.MintError
import PredictionMarket.Proofs.Market.Run

/-!
# The loss of the maker is bounded

A winning share is paid out with one unit for `10 ^ 9`, so the maker loses what the
largest supply makes above all payments.  In exact arithmetic this is at most the
scale times the logarithm of the number of outcomes.  With roundings it is a little
more, and the point is that the excess does not grow with the number of trades.

The argument is on a potential.  `mass` is the exact sum of the exponentials, and a
payment of `a` multiplies it by `exp (a / b)`, apart from the roundings.  What a
rounding gives away shrinks with the exponential of the outcome sold, and every mint
nearly doubles that, so all that was ever given away on an outcome is bounded by a
function of its ratio, the `drift`.  The `exposure`, the logarithm of the mass without
drift and payments, never increases:

* `Minted.mass_credit_le` is the step of the mass,
* `Regular.exposure_buy_le` the step of the exposure,
* `Regular.exposure_executeAll_le` carries it through a run.
-/

namespace PredictionMarket.Market

open FixedPoint

/-! ## Exact exponentials -/

/-- The exponential of a fixed-point number, without rounding. -/
noncomputable def exactExp (x : Int) : ℝ := Real.exp (x / one)

theorem exactExp_eq (x : Int) : exactExp x = Real.exp (x / 10 ^ 9) := by rw [exactExp, cast_one]

theorem exactExp_pos (x : Int) : 0 < exactExp x := Real.exp_pos _

@[simp] theorem exactExp_zero : exactExp 0 = 1 := by simp [exactExp]

theorem exactExp_add (x l : Int) : exactExp (x + l) = exactExp x * exactExp l := by
  rw [exactExp_eq, exactExp_eq, exactExp_eq, ← Real.exp_add]
  push_cast
  ring_nf

/-- Nearly two is below the exponential of the least mint. -/
theorem le_exactExp {x : Int} (h : 693147180 ≤ x) : 199 / 100 ≤ exactExp x := by
  have hsplit : Real.log (199 / 100) = Real.log 2 + Real.log (995 / 1000) := by
    rw [← Real.log_mul (by norm_num) (by norm_num)]
    norm_num
  have htwo := Real.log_two_lt_d9
  have hrest := Real.log_le_sub_one_of_pos (by norm_num : (0 : ℝ) < 995 / 1000)
  norm_num at htwo hrest
  have hx : (693147180 : ℝ) ≤ x := by exact_mod_cast h
  have hlog : Real.log (199 / 100) ≤ x / 10 ^ 9 := by
    rw [hsplit, le_div_iff₀ (by norm_num)]
    linarith
  calc (199 / 100 : ℝ) = Real.exp (Real.log (199 / 100)) := by
        rw [Real.exp_log (by norm_num)]
    _ ≤ exactExp x := by
        rw [exactExp_eq]
        exact Real.exp_le_exp.mpr hlog

/-! ## The drift of an outcome -/

/-- A bound on what the roundings have given away on an outcome, by its ratio, as
part of the logarithm of the mass. -/
noncomputable def drift (x : Int) : ℝ :=
  if x = 0 then 0
  else ((20000 : Int) * (x / one) + (1020000000 : Int) - (2020000000 : Int) / exactExp x) / fineOne

theorem drift_of_ne_zero {x : Int} (h : x ≠ 0) :
    drift x = 2 / 10 ^ 14 * (x / 10 ^ 9) + 102 / 10 ^ 11 - 202 / 10 ^ 11 / exactExp x := by
  rw [drift, if_neg h, cast_one, cast_fineOne]
  push_cast
  ring

@[simp] theorem drift_zero : drift 0 = 0 := if_pos rfl

/-- Each outcome has a drift of little more than one unit. -/
theorem drift_le {x : Int} (h : x ≤ 90000000000) : drift x ≤ 103 / 10 ^ 11 := by
  by_cases hx0 : x = 0
  · rw [hx0, drift_zero]
    norm_num
  · rw [drift_of_ne_zero hx0]
    have hx : (x : ℝ) ≤ 90000000000 := by exact_mod_cast h
    have hpos : 0 ≤ 202 / 10 ^ 11 / exactExp x := div_nonneg (by norm_num) (exactExp_pos x).le
    linarith

/-- What a mint adds to the drift of an outcome sold before. -/
theorem le_drift_add_sub {x l : Int} (hx : 693147180 ≤ x) (hl : 693147180 ≤ l) :
    13 / 10 ^ 15 + 1004 / 10 ^ 12 / exactExp x ≤ drift (x + l) - drift x := by
  have hl' : (693147180 : ℝ) ≤ l := by exact_mod_cast hl
  have hdouble : 1 / exactExp (x + l) ≤ 100 / 199 * (1 / exactExp x) := by
    rw [exactExp_add, ← one_div_mul_one_div, mul_comm]
    refine mul_le_mul_of_nonneg_right ?_ (by have := exactExp_pos x; positivity)
    rw [div_le_div_iff₀ (exactExp_pos l) (by norm_num)]
    linarith [le_exactExp hl]
  have hpos : 0 < 1 / exactExp x := one_div_pos.mpr (exactExp_pos x)
  rw [drift_of_ne_zero (by omega), drift_of_ne_zero (by omega)]
  rw [div_eq_mul_one_div _ (exactExp (x + l)), div_eq_mul_one_div (202 / 10 ^ 11) (exactExp x),
    div_eq_mul_one_div (1004 / 10 ^ 12) (exactExp x)]
  push_cast
  linarith

/-- The drift of an outcome pays for the rounding of its exponential each time that
it is sold. -/
theorem exactExp_le_drift {x l : Int} (hx : x = 0 ∨ 693147180 ≤ x) (hlimit : x ≤ expLimit)
    (hl : 693147180 ≤ l) :
    (1 + 3 / 10 ^ 15) * (10 ^ 9 * exactExp x) ≤
      expValue x * (1 + (drift (x + l) - drift x)) := by
  rcases hx with rfl | hx
  · -- the exponential of an outcome not sold so far is exact
    have hl' : (693147180 : ℝ) ≤ l := by exact_mod_cast hl
    have hinv : 202 / 10 ^ 11 / exactExp l ≤ 202 / 10 ^ 11 / (199 / 100) := by
      gcongr
      exact le_exactExp hl
    rw [expValue_zero, cast_one, exactExp_zero, zero_add, drift_of_ne_zero (by omega),
      drift_zero]
    norm_num at hinv ⊢
    linarith
  · have hown := lt_expValue (by omega : 0 ≤ x) hlimit
    rw [← exactExp_eq] at hown
    have hlow := le_exactExp hx
    have hadd := le_drift_add_sub hx hl
    rw [div_eq_mul_one_div (1004 / 10 ^ 12) (exactExp x)] at hadd
    set e := exactExp x
    set q := 1 / e
    have hq0 : 0 < q := one_div_pos.mpr (by linarith)
    have hq : q ≤ 100 / 199 := by
      rw [div_le_div_iff₀ (by linarith) (by norm_num)]
      linarith
    have hqe : e * q = 1 := mul_one_div_cancel (by linarith)
    have hfactor : 0 < 1 + (13 / 10 ^ 15 + 1004 / 10 ^ 12 * q) := by positivity
    have hE : (0 : ℝ) ≤ expValue x := by exact_mod_cast expValue_nonneg x
    calc (1 + 3 / 10 ^ 15) * (10 ^ 9 * e)
        ≤ (10 ^ 9 * e * (1 - 3 / 10 ^ 15) - 1) * (1 + (13 / 10 ^ 15 + 1004 / 10 ^ 12 * q)) := by
          have hprod : (10 ^ 9 * e * (1 - 3 / 10 ^ 15) - 1) *
              (1 + (13 / 10 ^ 15 + 1004 / 10 ^ 12 * q)) =
              10 ^ 9 * (1 - 3 / 10 ^ 15) * (1 + 13 / 10 ^ 15) * e +
                (1004 / 10 ^ 3 * (1 - 3 / 10 ^ 15)) * (e * q) - (1 + 13 / 10 ^ 15) -
                1004 / 10 ^ 12 * q := by ring
          rw [hprod, hqe]
          linarith
      _ ≤ expValue x * (1 + (13 / 10 ^ 15 + 1004 / 10 ^ 12 * q)) := by
          refine mul_le_mul_of_nonneg_right ?_ hfactor.le
          linarith
      _ ≤ expValue x * (1 + (drift (x + l) - drift x)) := by gcongr

/-! ## The mass of a market -/

/-- The sum of the exponentials of all outcomes, without rounding. -/
noncomputable def mass (m : Market) : ℝ := (m.ratios.map exactExp).sum

/-- One exponential is within the mass. -/
theorem exactExp_le_mass {m : Market} {x : Int} (hx : x ∈ m.ratios) : exactExp x ≤ m.mass := by
  refine List.single_le_sum ?_ _ (List.mem_map_of_mem hx)
  intro e he
  obtain ⟨y, -, rfl⟩ := List.mem_map.mp he
  exact (exactExp_pos y).le

/-- The pool is the mass rounded down. -/
theorem Sound.poolValue_le_mass {m : Market} (h : m.Sound) (hlive : m.Live) :
    (m.poolValue : ℝ) ≤ 10 ^ 9 * m.mass := by
  have hcast : (m.poolValue : ℝ) = (m.ratios.map fun x => (expValue x : ℝ)).sum := by
    rw [poolValue, Int.cast_list_sum, List.map_map]
    rfl
  rw [hcast, mass, ← List.sum_map_mul_left]
  apply List.sum_le_sum
  intro x hx
  rw [exactExp_eq]
  exact expValue_le (h.ratio_nonneg hx) (hlive x hx)

theorem Sound.mass_credit {m : Market} (h : m.Sound) {j : Fin maxOutcomes}
    (hj : j < m.outcomes) {l : Int} (hl : 0 ≤ l) (payment : Int) :
    (m.credit j (m.scale * l) payment).mass =
      m.mass - exactExp (m.ratio j) + exactExp (m.ratio j + l) := by
  rw [mass, h.ratios_credit hj hl, sum_map_set exactExp (m.getElem?_ratios hj), ← mass]

/-- A trade multiplies the mass by no more than the exponential of the payment, apart
from what the drift pays for. -/
theorem Minted.mass_credit_le {m : Market} (h : m.Regular) {j : Fin maxOutcomes}
    (hj : j < m.outcomes) {payment shares l : Int} (hm : m.Minted j payment shares)
    (hl : ln (m.argument j payment) = .ok l) (hlow : 693147180 ≤ l) :
    (m.credit j (m.scale * l) payment).mass ≤
      (1 + (drift (m.ratio j + l) - drift (m.ratio j))) *
        (m.mass * Real.exp (m.charge payment / 10 ^ 9)) := by
  have hratio := m.ratio_mem hj
  have hown := own_pos h.sound hj
  have hown_le := expValue_le (h.sound.own_nonneg hj) (hm.live _ hratio)
  have hrule := hm.own_mul_exp_le h.sound hj hl
  have hX := hm.one_le_exp_charge h.sound
  have hpool := h.sound.poolValue_le_mass hm.live
  have hmass := exactExp_le_mass hratio
  have hdrift := exactExp_le_drift (h.ratio_eq_zero_or _ hratio) (hm.live _ hratio) hlow
  have hpos := exactExp_pos (m.ratio j)
  rw [← exactExp_eq] at hown_le hrule
  rw [h.sound.mass_credit hj (by omega), exactExp_add]
  set S : ℝ := (m.poolValue : ℝ)
  set E : ℝ := (expValue (m.ratio j) : ℝ)
  set e := exactExp (m.ratio j)
  set M := m.mass
  set X := Real.exp (m.charge payment / 10 ^ 9)
  have hX0 : 0 ≤ X - 1 := by linarith
  have hMX : 0 ≤ M * X := mul_nonneg (by linarith) (by linarith)
  refine le_of_mul_le_mul_left ?_ hown
  calc E * (M - e + e * exactExp l)
      = E * M - E * e + e * (E * exactExp l) := by ring
    _ ≤ E * M - E * e + e * ((1 + 3 / 10 ^ 15) * (10 ^ 9 * M * (X - 1) + E)) := by
        have hmore : S * (X - 1) ≤ 10 ^ 9 * M * (X - 1) := mul_le_mul_of_nonneg_right hpool hX0
        have hmul : E * exactExp l ≤ (1 + 3 / 10 ^ 15) * (10 ^ 9 * M * (X - 1) + E) := by
          linarith
        linarith [mul_le_mul_of_nonneg_left hmul hpos.le]
    _ = e * ((1 + 3 / 10 ^ 15) * (10 ^ 9 * M * X)) - (10 ^ 9 * e - E) * M -
          3 / 10 ^ 15 * e * (10 ^ 9 * M - E) := by ring
    _ ≤ e * ((1 + 3 / 10 ^ 15) * (10 ^ 9 * M * X)) := by
        have hfirst : 0 ≤ (10 ^ 9 * e - E) * M := mul_nonneg (by linarith) (by linarith)
        have hsecond : 0 ≤ 3 / 10 ^ 15 * e * (10 ^ 9 * M - E) :=
          mul_nonneg (by positivity) (by linarith)
        linarith
    _ = (1 + 3 / 10 ^ 15) * (10 ^ 9 * e) * (M * X) := by ring
    _ ≤ E * (1 + (drift (m.ratio j + l) - drift (m.ratio j))) * (M * X) := by gcongr
    _ = E * ((1 + (drift (m.ratio j + l) - drift (m.ratio j))) * (M * X)) := by ring

/-! ## The exposure of the maker -/

/-- The logarithm of the mass, without the drift of the outcomes and the payments. -/
noncomputable def exposure (m : Market) : ℝ :=
  Real.log m.mass - (m.ratios.map drift).sum - m.reserves.toList.sum / m.scale

/-- The payments after a trade. -/
theorem sum_reserves_credit (m : Market) (j : Fin maxOutcomes) (shares payment : Int) :
    (m.credit j shares payment).reserves.toList.sum = m.reserves.toList.sum + payment := by
  have hroom : j.val < m.reserves.toList.length := by simp
  have hold : m.reserves.toList[j.val] = m.reserves.get j := Vector.getElem_toList hroom
  rw [credit, Vector.toList_set, List.sum_set', dif_pos hroom, hold]
  ring

/-- No trade increases the exposure. -/
theorem Regular.exposure_buy_le {m after : Market} (h : m.Regular) {i : Number}
    {payment shares : Int} (hbuy : m.buy i payment = (.ok shares, after)) :
    after.exposure ≤ m.exposure := by
  obtain ⟨j, l, -, hj, hm, hl, hlow, -, -, rfl⟩ := h.sound.trade hbuy
  have hl0 : 0 ≤ l := by omega
  have hscale : (0 : ℝ) < m.scale := by exact_mod_cast h.sound.scale_pos
  have hmass : 0 < m.mass := lt_of_lt_of_le (exactExp_pos _) (exactExp_le_mass (m.ratio_mem hj))
  have hafter : 0 < (m.credit j (m.scale * l) payment).mass :=
    lt_of_lt_of_le (exactExp_pos _) (exactExp_le_mass (h.sound.ratio_add_mem hj hl0 payment))
  have hstep := hm.mass_credit_le h hj hl hlow
  set d := drift (m.ratio j + l) - drift (m.ratio j) with hd
  have hfactor : 0 < 1 + d := by
    have hprod := hafter.trans_le hstep
    exact (pos_iff_pos_of_mul_pos hprod).mpr (by positivity)
  have hlog : Real.log (m.credit j (m.scale * l) payment).mass ≤
      d + (Real.log m.mass + m.charge payment / 10 ^ 9) :=
    calc Real.log (m.credit j (m.scale * l) payment).mass
        ≤ Real.log ((1 + d) * (m.mass * Real.exp (m.charge payment / 10 ^ 9))) :=
          Real.log_le_log hafter hstep
      _ = Real.log (1 + d) + (Real.log m.mass + m.charge payment / 10 ^ 9) := by
          rw [log_mul_mul_exp hfactor hmass]
      _ ≤ d + (Real.log m.mass + m.charge payment / 10 ^ 9) := by
          have := Real.log_le_sub_one_of_pos hfactor
          linarith
  have hcharge : (m.charge payment : ℝ) / 10 ^ 9 ≤ payment / m.scale := by
    obtain ⟨hle, -⟩ := h.sound.scale_mul_charge (le_of_lt hm.payment_pos)
    have hreal : (m.scale : ℝ) * m.charge payment ≤ payment * 10 ^ 9 := by
      rw [← cast_one]
      exact_mod_cast hle
    rw [div_le_div_iff₀ (by norm_num) hscale]
    linarith
  rw [exposure, exposure, h.sound.ratios_credit hj hl0, sum_map_set drift (m.getElem?_ratios hj),
    sum_reserves_credit, credit_scale]
  push_cast
  rw [add_div]
  linarith

/-- No run increases the exposure. -/
theorem Regular.exposure_executeAll_le {m : Market} (h : m.Regular) (orders : List Order) :
    (m.executeAll orders).exposure ≤ m.exposure := by
  have hrun : (m.executeAll orders).Regular ∧ (m.executeAll orders).exposure ≤ m.exposure := by
    refine executeAll_induction (P := fun m' => m'.Regular ∧ m'.exposure ≤ m.exposure) ?_
      ⟨h, le_rfl⟩ orders
    rintro m' i payment shares after ⟨hregular, hle⟩ hbuy
    exact ⟨hregular.buy hbuy, (hregular.exposure_buy_le hbuy).trans hle⟩
  exact hrun.2

/-- A market just opened is exposed to the logarithm of the number of its outcomes. -/
theorem exposure_of_ofTerms {terms : Terms} {now minDuration : Number} {m : Market}
    (h : ofTerms terms now minDuration = .ok m) : m.exposure = Real.log m.outcomes := by
  have hreserves : m.reserves.toList.sum = 0 := by
    obtain ⟨n, -, -, rfl⟩ := ofTerms_eq_ok h
    simp
  rw [exposure, mass, ratios_of_ofTerms h, hreserves, List.map_replicate, List.map_replicate,
    exactExp_zero, drift_zero]
  simp

/-! ## The bound -/

/-- A ratio is below what exposure and payments make, up to sixteen drifts. -/
theorem Regular.ratio_le_exposure {m : Market} (h : m.Regular) {j : Fin maxOutcomes}
    (hj : j < m.outcomes) :
    (m.ratio j : ℝ) / 10 ^ 9 ≤ m.exposure + m.reserves.toList.sum / m.scale + 165 / 10 ^ 10 := by
  have hmass : Real.exp (m.ratio j / 10 ^ 9) ≤ m.mass := by
    rw [← exactExp_eq]
    exact exactExp_le_mass (m.ratio_mem hj)
  have hlog : (m.ratio j : ℝ) / 10 ^ 9 ≤ Real.log m.mass := by
    rw [Real.le_log_iff_exp_le (lt_of_lt_of_le (Real.exp_pos _) hmass)]
    exact hmass
  have hdrift : (m.ratios.map drift).sum ≤ 165 / 10 ^ 10 := by
    have hle : ∀ d ∈ m.ratios.map drift, d ≤ 103 / 10 ^ 11 := by
      intro d hd
      obtain ⟨x, hx, rfl⟩ := List.mem_map.mp hd
      exact drift_le (h.ratio_le x hx)
    have hcard := List.sum_le_card_nsmul (m.ratios.map drift) _ hle
    have hroom : (m.outcomes : ℝ) ≤ 16 := by exact_mod_cast h.sound.outcomes_le
    rw [List.length_map, length_ratios h.sound.outcomes_le, nsmul_eq_mul] at hcard
    linarith
  rw [exposure]
  linarith

/-- The greatest loss of a market is the scale times the logarithm of the number of
outcomes, up to a unit and two scales. -/
theorem Sound.worstCaseLoss_bounds {m : Market} (h : m.Sound) (hmodest : m.Modest) :
    ∃ L, worstCaseLoss m.scale (Number.ofInt m.outcomes) = .ok L ∧
      m.scale * (10 ^ 9 * Real.log m.outcomes) ≤ 10 ^ 9 * (L + 1) + 2 * m.scale := by
  obtain ⟨l, hl, hl0, hloss⟩ := h.worstCaseLoss_ok hmodest
  refine ⟨_, hloss, ?_⟩
  have hscale : (0 : ℝ) < m.scale := by exact_mod_cast h.scale_pos
  obtain ⟨htwo, hle⟩ := h.outcomes_mul_one_bounds
  have hlower := ln_lower (le_trans (by decide) htwo) hle hl
  push_cast at hlower
  rw [cast_one, mul_div_assoc, div_self (by norm_num), mul_one] at hlower
  have hround := lt_tdiv (mul_nonneg h.scale_pos.le hl0) FixedPoint.one_pos
  rw [cast_one, div_lt_iff₀ (by norm_num)] at hround
  push_cast at hround
  have hscaled := mul_le_mul_of_nonneg_left hlower.le hscale.le
  linarith

/-- Whichever outcome wins, the maker of a market that has traded loses no more than
the greatest loss beyond the payments, up to a unit and twenty scales. -/
theorem supply_le_of_executeAll {terms : Terms} {now minDuration : Number} {opened : Market}
    (hopen : ofTerms terms now minDuration = .ok opened) {orders : List Order}
    (htraded : opened.ledger orders ≠ []) :
    let m := opened.executeAll orders
    ∃ L, worstCaseLoss m.scale (Number.ofInt m.outcomes) = .ok L ∧
      ∀ j : Fin maxOutcomes, j < m.outcomes →
        m.supplies.get j ≤ 10 ^ 9 * (m.reserves.toList.sum + L + 1) + 20 * m.scale := by
  intro m
  have hopened := regular_of_ofTerms hopen
  have hm : m.Regular := ((Reachable.opened terms now minDuration hopen).executeAll orders).regular
  obtain ⟨houtcomes, hscale⟩ : m.outcomes = opened.outcomes ∧ m.scale = opened.scale :=
    executeAll_outcomes_scale opened orders
  have hmodest : m.Modest := by
    rw [Modest, hscale]
    exact modest_of_ledger_ne_nil hopened.sound htraded
  obtain ⟨L, hL, hloss⟩ := hm.sound.worstCaseLoss_bounds hmodest
  refine ⟨L, hL, ?_⟩
  intro j hj
  have hpos : (0 : ℝ) < m.scale := by exact_mod_cast hm.sound.scale_pos
  have hexposure := hopened.exposure_executeAll_le orders
  rw [exposure_of_ofTerms hopen, ← houtcomes] at hexposure
  have hratio := hm.ratio_le_exposure hj
  have hratio' : (m.ratio j : ℝ) / 10 ^ 9 ≤
      Real.log m.outcomes + m.reserves.toList.sum / m.scale + 165 / 10 ^ 10 :=
    hratio.trans (by linarith)
  set paid : Int := m.reserves.toList.sum
  have hscaled := mul_le_mul_of_nonneg_left hratio' (by positivity : 0 ≤ m.scale * (10 : ℝ) ^ 9)
  have hreal : (m.supplies.get j : ℝ) ≤ 10 ^ 9 * (paid + L + 1) + 20 * m.scale := by
    rw [hm.supply_eq hj, Int.cast_mul]
    calc (m.scale : ℝ) * m.ratio j
        = m.scale * 10 ^ 9 * (m.ratio j / 10 ^ 9) := by ring
      _ ≤ m.scale * (10 ^ 9 * Real.log m.outcomes) + 10 ^ 9 * (m.scale * (paid / m.scale)) +
            165 / 10 * m.scale := by linarith
      _ = m.scale * (10 ^ 9 * Real.log m.outcomes) + 10 ^ 9 * paid + 165 / 10 * m.scale := by
          rw [mul_div_cancel₀ _ hpos.ne']
      _ ≤ 10 ^ 9 * (paid + L + 1) + 20 * m.scale := by linarith
  exact_mod_cast hreal

/-- The terms of a market of three outcomes. -/
def threeWay : Terms where
  label := Text.ofString "three"
  admin := Text.ofString "admin"
  outcomes := 3
  scale := 1000
  resolveAt := 3600

/-- The market on these terms, before its first trade. -/
def unsold : Market where
  label := Text.ofString "three"
  admin := Text.ofString "admin"
  outcomes := 3
  scale := 1000
  openedAt := 0
  resolveAt := 3600
  supplies := Vector.replicate maxOutcomes 0
  reserves := Vector.replicate maxOutcomes 0

/-- Two orders that are carried out, and between them one for no outcome and one
beyond the limit. -/
def mixedOrders : List Order := [⟨1, 800⟩, ⟨7, 5⟩, ⟨1, 20001⟩, ⟨2, 500⟩]

theorem supply_le_of_executeAll_unsold :
    ofTerms threeWay 0 60 = .ok unsold ∧ unsold.ledger mixedOrders ≠ [] ∧
      let m := unsold.executeAll mixedOrders
      ∃ L, worstCaseLoss m.scale (Number.ofInt m.outcomes) = .ok L ∧
        ∀ j : Fin maxOutcomes, j < m.outcomes →
          m.supplies.get j ≤ 10 ^ 9 * (m.reserves.toList.sum + L + 1) + 20 * m.scale := by
  have hopen : ofTerms threeWay 0 60 = .ok unsold := by cbv
  have hledger : unsold.ledger mixedOrders =
      [(⟨1, 800⟩, 1542576222000), (⟨2, 500⟩, 1673588960000)] := by cbv
  have htraded : unsold.ledger mixedOrders ≠ [] := by
    rw [hledger]
    exact List.cons_ne_nil _ _
  exact ⟨hopen, htraded, supply_le_of_executeAll hopen htraded⟩

end PredictionMarket.Market
