import Mathlib.Algebra.BigOperators.Group.List.Basic
import Mathlib.Algebra.Order.BigOperators.Group.List
import PredictionMarket.Market.Pricing
import PredictionMarket.Proofs.FixedPoint.ExpError

/-!
# The pool of a market

A market is priced from the ratios of its supplies to its scale.  As the
exponential never fails, the exponentials of a market are those of its ratios
(`exponentials_eq`), and their sum, which the market checks after every term, is
refused just where the whole of it does not fit (`pool_eq`).

A market is `Live` if no ratio is above the limit of the exponential.  For a
`Sound` market this decides whether there is a pool at all: `pool_of_live` and
`pool_of_not_live`.
-/

namespace PredictionMarket.Market

open FixedPoint

/-! ## Sound and live markets -/

/-- A market as every trade leaves it: a permitted number of outcomes, a positive
scale, and no supply below zero. -/
structure Sound (m : Market) : Prop where
  /-- There are at least two outcomes. -/
  le_outcomes : minOutcomes ≤ m.outcomes
  /-- There is room for the outcomes. -/
  outcomes_le : m.outcomes ≤ maxOutcomes
  /-- The scale is positive. -/
  scale_pos : 0 < m.scale
  /-- No supply is negative. -/
  supplies_nonneg : ∀ s ∈ m.activeSupplies, 0 ≤ s

instance (m : Market) : Decidable m.Sound :=
  decidable_of_iff
    (minOutcomes ≤ m.outcomes ∧ m.outcomes ≤ maxOutcomes ∧ 0 < m.scale ∧
      ∀ s ∈ m.activeSupplies, 0 ≤ s)
    ⟨fun ⟨h1, h2, h3, h4⟩ => ⟨h1, h2, h3, h4⟩, fun ⟨h1, h2, h3, h4⟩ => ⟨h1, h2, h3, h4⟩⟩

/-- The supply of an outcome in units of the scale, with nine places. -/
def ratio (m : Market) (j : Fin maxOutcomes) : Int := (m.supplies.get j).tdiv m.scale

/-- The ratios of all outcomes. -/
def ratios (m : Market) : List Int := m.activeSupplies.map fun s => s.tdiv m.scale

/-- No ratio is above the limit of the exponential. -/
def Live (m : Market) : Prop := ∀ x ∈ m.ratios, x ≤ expLimit

instance (m : Market) : Decidable m.Live := inferInstanceAs (Decidable (∀ x ∈ m.ratios, _))

/-- The sum of the exponentials, without a limit on its size. -/
def poolValue (m : Market) : Int := (m.ratios.map expValue).sum

theorem length_activeSupplies {m : Market} (h : m.outcomes ≤ maxOutcomes) :
    m.activeSupplies.length = m.outcomes := by
  rw [activeSupplies, List.length_take, Vector.length_toList]
  omega

theorem length_ratios {m : Market} (h : m.outcomes ≤ maxOutcomes) :
    m.ratios.length = m.outcomes := by
  rw [ratios, List.length_map, length_activeSupplies h]

/-- The supply of an outcome stands at its index. -/
theorem getElem?_activeSupplies (m : Market) {j : Fin maxOutcomes} (hj : j < m.outcomes) :
    m.activeSupplies[j.val]? = some (m.supplies.get j) := by
  have hroom : j.val < m.supplies.toList.length := by simp
  rw [activeSupplies, List.getElem?_take_of_lt hj, List.getElem?_eq_getElem hroom,
    Vector.getElem_toList]
  rfl

theorem supply_mem (m : Market) {j : Fin maxOutcomes} (hj : j < m.outcomes) :
    m.supplies.get j ∈ m.activeSupplies :=
  List.mem_of_getElem? (m.getElem?_activeSupplies hj)

/-- The ratio of an outcome stands at its index. -/
theorem getElem?_ratios (m : Market) {j : Fin maxOutcomes} (hj : j < m.outcomes) :
    m.ratios[j.val]? = some (m.ratio j) := by
  rw [ratios, List.getElem?_map, m.getElem?_activeSupplies hj]
  rfl

theorem ratio_mem (m : Market) {j : Fin maxOutcomes} (hj : j < m.outcomes) :
    m.ratio j ∈ m.ratios :=
  List.mem_of_getElem? (m.getElem?_ratios hj)

theorem Sound.ratio_nonneg {m : Market} (h : m.Sound) {x : Int} (hx : x ∈ m.ratios) : 0 ≤ x := by
  obtain ⟨s, hs, rfl⟩ := List.mem_map.mp hx
  exact Int.tdiv_nonneg (h.supplies_nonneg s hs) (le_of_lt h.scale_pos)

theorem Sound.own_nonneg {m : Market} (h : m.Sound) {j : Fin maxOutcomes}
    (hj : j < m.outcomes) : 0 ≤ m.ratio j :=
  h.ratio_nonneg (m.ratio_mem hj)

/-! ## The sum of the exponentials -/

theorem exponentials_eq (m : Market) : m.exponentials = .ok (m.ratios.map expValue) := by
  have hpure : (fun s : Int => exp (s.tdiv m.scale)) =
      fun s : Int => (pure (expValue (s.tdiv m.scale)) : Except MarketError Int) := by
    funext s
    exact exp_eq_ok _
  rw [exponentials, hpure, List.mapM_pure, ratios, List.map_map]
  rfl

/-- A sum of naturals that is checked after every term is refused just where the
whole sum does not fit. -/
theorem foldlM_add_eq {es : List Int} (hes : ∀ e ∈ es, 0 ≤ e) {start : Int}
    (h0 : 0 ≤ start) (hstart : start ≤ Width.u128.greatest) :
    es.foldlM Width.u128.add start = Width.u128.confine (start + es.sum) := by
  induction es generalizing start with
  | nil =>
    rw [List.foldlM_nil, List.sum_nil, add_zero, Width.confine_of_fits ⟨h0, hstart⟩]
    rfl
  | cons e es ih =>
    have he : 0 ≤ e := hes e List.mem_cons_self
    have hrest : ∀ d ∈ es, 0 ≤ d := fun d hd => hes d (List.mem_cons_of_mem e hd)
    have hsum : 0 ≤ es.sum := List.sum_nonneg hrest
    rw [List.foldlM_cons, List.sum_cons, Width.add]
    rcases le_or_gt (start + e) Width.u128.greatest with hle | hlt
    · rw [Width.confine_of_fits ⟨by simp only [Width.least]; omega, hle⟩, ok_bind,
        ih hrest (by omega) hle, add_assoc]
    · rw [Width.confine_of_not_fits fun h => absurd h.2 (not_le.mpr hlt), error_bind,
        Width.confine_of_not_fits fun h => absurd h.2 (not_le.mpr (by omega))]

/-- The pool is the sum of the exponentials, where that fits. -/
theorem pool_eq (m : Market) : m.pool = Width.u128.confine m.poolValue := by
  have hes : ∀ e ∈ m.ratios.map expValue, 0 ≤ e := by
    intro e he
    obtain ⟨x, -, rfl⟩ := List.mem_map.mp he
    exact expValue_nonneg x
  rw [pool, exponentials_eq, ok_bind, total, foldlM_add_eq hes le_rfl (by decide), zero_add]
  rfl

/-! ## Bounds on the pool -/

/-- Every exponential of a sound market is at least one. -/
theorem Sound.length_mul_one_le {m : Market} (h : m.Sound) {xs : List Int}
    (hxs : ∀ x ∈ xs, x ∈ m.ratios) : xs.length * one ≤ (xs.map expValue).sum := by
  have hle : ∀ e ∈ xs.map expValue, one ≤ e := by
    intro e he
    obtain ⟨x, hx, rfl⟩ := List.mem_map.mp he
    exact one_le_expValue (h.ratio_nonneg (hxs x hx))
  have hcard := List.card_nsmul_le_sum (xs.map expValue) one hle
  rwa [List.length_map, nsmul_eq_mul] at hcard

theorem Sound.two_mul_one_le {m : Market} (h : m.Sound) : 2 * one ≤ m.poolValue := by
  have htwo : (2 : Int) ≤ m.ratios.length := by
    rw [length_ratios h.outcomes_le]
    exact_mod_cast h.le_outcomes
  exact (Int.mul_le_mul_of_nonneg_right htwo (le_of_lt FixedPoint.one_pos)).trans
    (h.length_mul_one_le fun _ hx => hx)

theorem Sound.one_le_poolValue {m : Market} (h : m.Sound) : one ≤ m.poolValue :=
  le_trans (by decide) h.two_mul_one_le

theorem Sound.cast_poolValue_pos {m : Market} (h : m.Sound) : (0 : ℝ) < m.poolValue := by
  exact_mod_cast lt_of_lt_of_le FixedPoint.one_pos h.one_le_poolValue

/-- One exponential of a sound market, and another one beside it, are within the
pool. -/
theorem Sound.expValue_add_one_le {m : Market} (h : m.Sound) {x : Int} (hx : x ∈ m.ratios) :
    expValue x + one ≤ m.poolValue := by
  obtain ⟨before, after, hsplit⟩ := List.append_of_mem hx
  have hbefore : before.length * one ≤ (before.map expValue).sum := by
    apply h.length_mul_one_le
    intro y hy
    rw [hsplit]
    exact List.mem_append_left _ hy
  have hafter : after.length * one ≤ (after.map expValue).sum := by
    apply h.length_mul_one_le
    intro y hy
    rw [hsplit]
    exact List.mem_append_right _ (List.mem_cons_of_mem _ hy)
  have hothers : (1 : Int) ≤ before.length + after.length := by
    have hlen := length_ratios h.outcomes_le
    have htwo : 2 ≤ m.outcomes := h.le_outcomes
    rw [hsplit, List.length_append, List.length_cons] at hlen
    omega
  have hone := Int.mul_le_mul_of_nonneg_right hothers (le_of_lt FixedPoint.one_pos)
  rw [one_mul, add_mul] at hone
  rw [poolValue, hsplit, List.map_append, List.map_cons, List.sum_append, List.sum_cons]
  linarith

/-- The pool of a live market has at most twenty digits. -/
theorem Sound.poolValue_le {m : Market} (h : m.Sound) (hlive : m.Live) :
    m.poolValue ≤ 16 * 1000000000000000000 := by
  have hle : ∀ e ∈ m.ratios.map expValue, e ≤ 1000000000000000000 := by
    intro e he
    obtain ⟨x, hx, rfl⟩ := List.mem_map.mp he
    exact expValue_le_of_le_limit (h.ratio_nonneg hx) (hlive x hx)
  have hcard := List.sum_le_card_nsmul (m.ratios.map expValue) _ hle
  rw [List.length_map, length_ratios h.outcomes_le, nsmul_eq_mul] at hcard
  have hroom : (m.outcomes : Int) ≤ 16 := by exact_mod_cast h.outcomes_le
  apply hcard.trans
  exact Int.mul_le_mul_of_nonneg_right hroom (by norm_num)

theorem Sound.pool_of_live {m : Market} (h : m.Sound) (hlive : m.Live) :
    m.pool = .ok m.poolValue := by
  have hlow := h.two_mul_one_le
  have hhigh := h.poolValue_le hlive
  rw [pool_eq, Width.confine_of_fits]
  refine ⟨?_, hhigh.trans (by decide)⟩
  exact le_trans (by decide) hlow

/-- A saturated exponential leaves no room for the others. -/
theorem Sound.pool_of_not_live {m : Market} (h : m.Sound) (hlive : ¬ m.Live) :
    m.pool = .error .mathOverflow := by
  rw [Live] at hlive
  push Not at hlive
  obtain ⟨x, hx, hlimit⟩ := hlive
  have hle := h.expValue_add_one_le hx
  rw [expValue_of_limit_lt hlimit] at hle
  rw [pool_eq, Width.confine_of_not_fits]
  intro hfits
  have := hfits.2
  have := FixedPoint.one_pos
  omega

/-- A sound market has a pool just while it is live. -/
theorem Sound.live_of_pool {m : Market} (h : m.Sound) {sum : Int} (hpool : m.pool = .ok sum) :
    m.Live ∧ sum = m.poolValue := by
  by_cases hlive : m.Live
  · rw [h.pool_of_live hlive] at hpool
    exact ⟨hlive, (Except.ok.inj hpool).symm⟩
  · rw [h.pool_of_not_live hlive] at hpool
    exact absurd hpool (by simp)

end PredictionMarket.Market
