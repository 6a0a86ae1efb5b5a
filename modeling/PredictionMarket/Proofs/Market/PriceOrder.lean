import Mathlib
import PredictionMarket.Proofs.Market.Prices

/-!
# A purchase does not lower its own price

More shares of an outcome raise its exponential and leave the others as they are, and the
price is its share in one.  A division by largest remainders does not take a unit from a
weight that grows alone (`Apportionment.share_le_share_of_grown`), so the price does not fall.

`Raised` says how the two markets differ, and `Raised.price_le` is the statement on prices.
None of it asks for markets that trading can reach.
-/

namespace PredictionMarket.Market

open FixedPoint

/-- The market `after` has at least the shares of the outcome `j` that `m` has, and is like `m`
in all else that prices depend on. -/
structure Raised (m after : Market) (j : Fin maxOutcomes) : Prop where
  /-- The outcomes are the same. -/
  outcomes_eq : after.outcomes = m.outcomes
  /-- The scale is the same. -/
  scale_eq : after.scale = m.scale
  /-- There are no fewer shares of the outcome. -/
  supply_le : m.supplies.get j ≤ after.supplies.get j
  /-- There are as many shares of every other outcome. -/
  supply_eq : ∀ k : Fin maxOutcomes, k < m.outcomes → k ≠ j →
    after.supplies.get k = m.supplies.get k

theorem raised_credit (m : Market) (j : Fin maxOutcomes) {shares : Int} (h0 : 0 ≤ shares)
    (payment : Int) : Raised m (m.credit j shares payment) j where
  outcomes_eq := rfl
  scale_eq := rfl
  supply_le := by
    rw [supply_credit]
    omega
  supply_eq := by
    intro k _ hne
    exact Vector.getElem_set_ne j.isLt k.isLt fun heq => hne (Fin.ext heq.symm)

/-- The weights of the first `n` outcomes, so that two markets have theirs in one type. -/
def weights (m : Market) {n : Nat} (hroom : n ≤ maxOutcomes) (k : Fin n) : Int :=
  expValue (m.ratio (k.castLE hroom))

theorem weights_nonneg (m : Market) {n : Nat} (hroom : n ≤ maxOutcomes) (k : Fin n) :
    0 ≤ m.weights hroom k :=
  expValue_nonneg _

/-- The price of an outcome is its share in one, unless all exponentials vanish. -/
theorem price_cases {m : Market} {n : Nat} (hn : m.outcomes = n) (hroom : n ≤ maxOutcomes)
    {j : Fin n} {p : Int} (hp : m.price (Number.ofInt j) = .ok p) :
    (∑ k, m.weights hroom k = 0 ∧ p = 0) ∨
      (0 < ∑ k, m.weights hroom k ∧
        p = Apportionment.share one (∑ k, m.weights hroom k) (m.weights hroom) j) := by
  subst hn
  obtain ⟨-, ps, -, hps, -⟩ := price_eq_ok_iff.mp hp
  obtain ⟨-, hscale⟩ := terms_of_prices hps
  have hpool : m.poolValue = ∑ k, m.weights hroom k := poolValue_eq_sum_weight hroom
  have hnonneg : 0 ≤ ∑ k, m.weights hroom k :=
    Finset.sum_nonneg fun k _ => m.weights_nonneg hroom k
  rw [← hpool] at hnonneg ⊢
  rcases prices_cases hroom hscale hps with ⟨hzero, rfl⟩ | ⟨hne, rfl⟩
  · exact .inl ⟨hzero, Except.ok.inj (hp.symm.trans (price_of_ofFn hroom hps j))⟩
  · exact .inr ⟨by omega, Except.ok.inj (hp.symm.trans (price_of_ofFn hroom hps j))⟩

namespace Raised

variable {m after : Market} {j : Fin maxOutcomes}

theorem ratio_le (h : Raised m after j) (hscale : 0 < m.scale) : m.ratio j ≤ after.ratio j := by
  rw [ratio, ratio, h.scale_eq]
  exact Int.tdiv_le_tdiv hscale h.supply_le

theorem ratio_eq (h : Raised m after j) {k : Fin maxOutcomes} (hk : k < m.outcomes)
    (hne : k ≠ j) : after.ratio k = m.ratio k := by
  rw [ratio, ratio, h.scale_eq, h.supply_eq k hk hne]

/-- The weight of the outcome grows, and no other weight changes. -/
theorem weights_grow (h : Raised m after j) (hscale : 0 < m.scale)
    (hroom : m.outcomes ≤ maxOutcomes) (hj : j < m.outcomes) :
    m.weights hroom ⟨j, hj⟩ ≤ after.weights hroom ⟨j, hj⟩ ∧
      ∀ k : Fin m.outcomes, k ≠ ⟨j, hj⟩ → after.weights hroom k = m.weights hroom k := by
  refine ⟨expValue_mono (h.ratio_le hscale), ?_⟩
  intro k hne
  rw [weights, weights, h.ratio_eq (k := k.castLE hroom) k.isLt]
  intro heq
  apply hne
  exact Fin.ext (congrArg Fin.val heq :)

/-- The price of an outcome does not fall when more shares of it are sold. -/
theorem price_le (h : Raised m after j) (hj : j < m.outcomes) {p q : Int}
    (hp : m.price (Number.ofInt j) = .ok p) (hq : after.price (Number.ofInt j) = .ok q) : p ≤ q := by
  obtain ⟨-, ps, -, hps, -⟩ := price_eq_ok_iff.mp hp
  obtain ⟨hroom, hscale⟩ := terms_of_prices hps
  obtain ⟨hgrown, hothers⟩ := h.weights_grow hscale hroom hj
  have hle : ∑ k, m.weights hroom k ≤ ∑ k, after.weights hroom k := by
    apply Finset.sum_le_sum
    intro k _
    by_cases hk : k = ⟨j, hj⟩
    · rw [hk]
      exact hgrown
    · exact (hothers k hk).ge
  rcases price_cases rfl hroom (j := ⟨j, hj⟩) hp with ⟨-, rfl⟩ | ⟨hpos, rfl⟩
  · -- a price is never below that of a market without weights
    rcases price_cases h.outcomes_eq hroom (j := ⟨j, hj⟩) hq with ⟨-, rfl⟩ | ⟨hpos, rfl⟩
    · exact le_rfl
    · exact (Apportionment.fair_share FixedPoint.one_pos (after.weights_nonneg hroom) hpos
        rfl).nonneg ⟨j, hj⟩
  · rcases price_cases h.outcomes_eq hroom (j := ⟨j, hj⟩) hq with ⟨hzero, -⟩ | ⟨-, rfl⟩
    · exact absurd hpos (not_lt.mpr (hle.trans_eq hzero))
    · exact Apportionment.share_le_share_of_grown FixedPoint.one_pos.le hpos
        (m.weights_nonneg hroom) rfl rfl hgrown hothers

end Raised

/-- Of two markets that differ in the shares of one outcome, the one with more of them has no
lower price for it.  So no preview of a trade shows a fall of the price. -/
theorem price_keeps_up :
    (∀ (m after : Market) (j : Fin maxOutcomes), j < m.outcomes → Raised m after j →
      ∀ p q, m.price (Number.ofInt j) = .ok p → after.price (Number.ofInt j) = .ok q → p ≤ q) ∧
    ∀ (m : Market) (i : Number) (payment : Int) (q : Quote), m.quote i payment = .ok q →
      q.priceBefore ≤ q.priceAfter := by
  constructor
  · intro m after j hj h p q hp hq
    exact h.price_le hj hp hq
  · intro m i payment q hq
    obtain ⟨after, hbefore, -, hbuy, hafter, -⟩ := quote_eq_ok_iff.mp hq
    obtain ⟨j, hindex, hmint, -, -, rfl⟩ := buy_eq_ok_iff.mp hbuy
    obtain ⟨rfl, hj⟩ := outcome_eq_ok hindex
    exact (raised_credit m j (pos_of_mint hmint).le payment).price_le hj hbefore hafter

/-- Seven more shares are just enough for the third outcome of `overdrawn` to take the spare
unit from the second. -/
theorem price_keeps_up_overdrawn :
    Raised overdrawn (overdrawn.credit 2 7 0) 2 ∧ overdrawn.price 2 = .ok 472295351 ∧
      (overdrawn.credit 2 7 0).price 2 = .ok 472295352 ∧ (472295351 : Int) ≤ 472295352 ∧
      overdrawn.quote 0 20 = .ok {
        sharesOut := 39860613744
        priceBefore := 55409297
        priceAfter := 945749682
        costBefore := 5
        costAfter := 25 } ∧
      (55409297 : Int) ≤ 945749682 := by
  have hraised := raised_credit overdrawn 2 (by decide : (0 : Int) ≤ 7) 0
  have hbefore : overdrawn.price 2 = .ok 472295351 := by cbv
  have hafter : (overdrawn.credit 2 7 0).price 2 = .ok 472295352 := by cbv
  have hquote : overdrawn.quote 0 20 = .ok {
      sharesOut := 39860613744
      priceBefore := 55409297
      priceAfter := 945749682
      costBefore := 5
      costAfter := 25 } := by cbv
  obtain ⟨hprices, hquotes⟩ := price_keeps_up
  have hle := hprices _ _ 2 (by decide) hraised _ _ hbefore hafter
  exact ⟨hraised, hbefore, hafter, hle, hquote, hquotes _ _ _ _ hquote⟩

end PredictionMarket.Market
