import Mathlib
import PredictionMarket.Proofs.Apportionment
import PredictionMarket.Proofs.Market.Valuation

/-!
# Prices divide one fairly

The prices of a market are the shares of its exponentials in one, as a division by
largest remainders makes them.  `weight` is the exponential of an outcome, and
`prices_cases` says that the prices are those shares, unless all weights vanish.
`prices_fair` then reads off what is due to every outcome.

None of this asks for a market that can be reached by trading: the supplies may be
any integers for which there are prices at all.
-/

namespace PredictionMarket.Market

open FixedPoint

variable {m : Market}

/-- There are prices for a positive scale and a number of outcomes with room only. -/
theorem terms_of_prices {ps : List Int} (hps : m.prices = .ok ps) :
    m.outcomes ≤ maxOutcomes ∧ 0 < m.scale := by
  unfold prices at hps
  split at hps
  · simp at hps
  · split at hps
    · simp at hps
    · omega

/-- The exponential of an outcome. -/
def weight (m : Market) (hroom : m.outcomes ≤ maxOutcomes) (j : Fin m.outcomes) : Int :=
  expValue (m.ratio (j.castLE hroom))

theorem map_expValue_ratios (hroom : m.outcomes ≤ maxOutcomes) :
    m.ratios.map expValue = List.ofFn (m.weight hroom) := by
  apply List.ext_getElem?
  intro i
  rw [List.getElem?_map, List.getElem?_ofFn]
  split
  · rename_i hi
    have hratio := m.getElem?_ratios (j := ⟨i, by omega⟩) hi
    rw [hratio]
    rfl
  · rename_i hi
    rw [List.getElem?_eq_none (by rw [length_ratios hroom]; omega)]
    rfl

theorem poolValue_eq_sum_weight (hroom : m.outcomes ≤ maxOutcomes) :
    m.poolValue = ∑ j, m.weight hroom j := by
  rw [poolValue, map_expValue_ratios hroom, List.sum_ofFn]

theorem weight_nonneg (hroom : m.outcomes ≤ maxOutcomes) (j : Fin m.outcomes) :
    0 ≤ m.weight hroom j :=
  expValue_nonneg _

/-- A weight that does not vanish leaves something to divide by. -/
theorem poolValue_pos (hroom : m.outcomes ≤ maxOutcomes) (h : ∃ j, m.weight hroom j ≠ 0) :
    0 < m.poolValue := by
  obtain ⟨j, hj⟩ := h
  have hpos : 0 < m.weight hroom j := lt_of_le_of_ne (weight_nonneg hroom j) hj.symm
  rw [poolValue_eq_sum_weight hroom]
  exact hpos.trans_le
    (Finset.single_le_sum (fun i _ => weight_nonneg hroom i) (Finset.mem_univ j))

/-- The prices that weights make whose sum is `sum`. -/
def pricesOf {n : Nat} (ws : Fin n → Int) (sum : Int) : Except MarketError (List Int) :=
  if sum = 0 then .ok (List.ofFn fun _ : Fin n => 0)
  else if ∀ j, Width.u128.Fits (ws j * one) then
    .ok (List.ofFn (Apportionment.share one sum ws))
  else .error .mathOverflow

/-- A market computes its pool, and then the prices from its weights. -/
theorem prices_eq_bind (hroom : m.outcomes ≤ maxOutcomes) (hscale : 0 < m.scale) :
    m.prices = m.pool >>= pricesOf (m.weight hroom) := by
  rw [prices_eq hroom hscale, total_eq_pool, map_expValue_ratios hroom]
  simp only [List.forall_mem_ofFn_iff, Apportionment.apportion_ofFn, List.map_ofFn]
  rfl

/-- The prices are all zero if all weights are, and the shares of the weights in one
otherwise. -/
theorem prices_cases (hroom : m.outcomes ≤ maxOutcomes) (hscale : 0 < m.scale) {ps : List Int}
    (hps : m.prices = .ok ps) :
    (m.poolValue = 0 ∧ ps = List.ofFn fun _ : Fin m.outcomes => 0) ∨
      (m.poolValue ≠ 0 ∧
        ps = List.ofFn (Apportionment.share one m.poolValue (m.weight hroom))) := by
  rw [prices_eq_bind hroom hscale, pool_eq] at hps
  obtain ⟨sum, hsum, hps⟩ := bind_eq_ok_iff.mp hps
  obtain ⟨-, rfl⟩ := Width.confine_eq_ok_iff.mp hsum
  rw [pricesOf] at hps
  split at hps
  · rename_i hzero
    exact Or.inl ⟨hzero, (Except.ok.inj hps).symm⟩
  · rename_i hne
    split at hps
    · exact Or.inr ⟨hne, (Except.ok.inj hps).symm⟩
    · exact absurd hps (by simp)

/-- A price by index is an entry of the list of prices. -/
theorem price_of_ofFn (hroom : m.outcomes ≤ maxOutcomes) {p : Fin m.outcomes → Int}
    (hps : m.prices = .ok (List.ofFn p)) (j : Fin m.outcomes) :
    m.price (Number.ofInt j) = .ok (p j) := by
  refine price_eq_ok_iff.mpr ⟨_, _, outcome_castLE hroom rfl j, hps, ?_⟩
  rw [List.getD_eq_getElem?_getD, List.getElem?_ofFn]
  simp

/-- Prices divide one in proportion to the exponentials, as far as whole units go, and
each price stands in the list at the place of its outcome.  Without negative supplies
there is always an exponential that does not vanish. -/
theorem prices_fair (hsome : 1 ≤ m.outcomes) (hroom : m.outcomes ≤ maxOutcomes)
    (hscale : 0 < m.scale) {ps : List Int} (hps : m.prices = .ok ps) :
    ∃ e p : Fin m.outcomes → Int,
      (∀ j, exp ((m.supplies.get (j.castLE hroom)).tdiv m.scale) = .ok (e j)) ∧
      ps = List.ofFn p ∧ (∀ j : Fin m.outcomes, m.price (Number.ofInt j) = .ok (p j)) ∧
      ((∀ j : Fin m.outcomes, 0 ≤ m.supplies.get (j.castLE hroom)) → ∃ j, e j ≠ 0) ∧
      ((∃ j, e j ≠ 0) → Apportionment.Fair one e p) := by
  have hexp : ∀ j : Fin m.outcomes,
      exp ((m.supplies.get (j.castLE hroom)).tdiv m.scale) = .ok (m.weight hroom j) :=
    fun j => exp_eq_ok _
  have hweight : (∀ j : Fin m.outcomes, 0 ≤ m.supplies.get (j.castLE hroom)) →
      ∃ j, m.weight hroom j ≠ 0 := by
    intro hsupply
    have hratio := Int.tdiv_nonneg (hsupply ⟨0, hsome⟩) hscale.le
    exact ⟨⟨0, hsome⟩, ne_of_gt (expValue_pos hratio)⟩
  rcases prices_cases hroom hscale hps with ⟨hzero, rfl⟩ | ⟨-, rfl⟩
  · refine ⟨m.weight hroom, _, hexp, rfl, price_of_ofFn hroom hps, hweight, ?_⟩
    intro hne
    exact absurd hzero (ne_of_gt (poolValue_pos hroom hne))
  · refine ⟨m.weight hroom, _, hexp, rfl, price_of_ofFn hroom hps, hweight, ?_⟩
    intro hne
    exact Apportionment.fair_share FixedPoint.one_pos (weight_nonneg hroom)
      (poolValue_pos hroom hne) (poolValue_eq_sum_weight hroom).symm

/-- A market of three outcomes, one of them with a negative supply and the two others
alike, so that the spare unit goes by the place. -/
def overdrawn : Market where
  label := Text.ofString "overdrawn"
  admin := Text.ofString "admin"
  outcomes := 3
  scale := 7
  openedAt := 0
  resolveAt := 3600
  supplies := ((Vector.replicate maxOutcomes 1).set 0 (-15000000000))
  reserves := Vector.replicate maxOutcomes 0

theorem prices_fair_overdrawn :
    overdrawn.prices = .ok [55409297, 472295352, 472295351] ∧
      ∃ e p : Fin 3 → Int,
        (∀ j, exp ((overdrawn.supplies.get (j.castLE (by decide))).tdiv 7) = .ok (e j)) ∧
        [55409297, 472295352, 472295351] = List.ofFn p ∧
        (∀ j : Fin 3, overdrawn.price (Number.ofInt j) = .ok (p j)) ∧
        Apportionment.Fair one e p := by
  have hps : overdrawn.prices = .ok [55409297, 472295352, 472295351] := by cbv
  obtain ⟨e, p, hexp, hlist, hprice, -, hfair⟩ :=
    prices_fair (m := overdrawn) (by decide) (by decide) (by decide) hps
  have hone : e (1 : Fin 3) = 1000000000 := by
    have hcomputed : exp ((overdrawn.supplies.get ((1 : Fin 3).castLE (by decide))).tdiv 7) =
        .ok 1000000000 := by cbv
    exact Except.ok.inj ((hexp (1 : Fin 3)).symm.trans hcomputed)
  refine ⟨hps, e, p, hexp, hlist, hprice, hfair ⟨(1 : Fin 3), ?_⟩⟩
  rw [hone]
  decide

end PredictionMarket.Market
