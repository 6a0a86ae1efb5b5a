import Mathlib
import PredictionMarket.Proofs.Market.Valuation

/-!
# Why a market refuses an operation

A market refuses an operation for an overflow, for an index, for a payment, or because its
own number of outcomes or scale is out of range.  `Ordinary` says so of an operation.  It
passes through chains of operations (`Ordinary.bind`).

Two kinds of causes are left out.  No logarithm is taken outside its domain: those of a
market are of a pool, of a quotient plus one, or of a count.  And nothing is refused for a
cause that concerns labels and times, as only a registry looks at these.
-/

namespace PredictionMarket.Market

open FixedPoint

/-- The causes for which a market refuses an operation. -/
def ordinaryCauses : List MarketError :=
  [.mathOverflow, .invalidOutcomeIndex, .liquidityParameterIsZero, .tooManyOutcomes,
    .depositIsZero]

/-- The operation is refused for one of the causes of a market, if it is refused at all. -/
def Ordinary {α : Type} (x : Except MarketError α) : Prop :=
  ∀ e, x = .error e → e ∈ ordinaryCauses

theorem Ordinary.bind {α β : Type} {x : Except MarketError α} {f : α → Except MarketError β}
    (hx : Ordinary x) (hf : ∀ a, x = .ok a → Ordinary (f a)) : Ordinary (x >>= f) := by
  intro e h
  rcases bind_eq_error_iff.mp h with herror | ⟨a, ha, herror⟩
  · exact hx e herror
  · exact hf a ha e herror

theorem ordinary_ok {α : Type} (a : α) : Ordinary (.ok a : Except MarketError α) := by
  simp [Ordinary]

theorem ordinary_error {α : Type} {e : MarketError} (h : e ∈ ordinaryCauses) :
    Ordinary (.error e : Except MarketError α) := by
  simpa [Ordinary] using h

/-! ## Arithmetic -/

theorem ordinary_confine (w : Width) (v : Int) : Ordinary (w.confine v) := by
  unfold Width.confine
  split
  · exact ordinary_ok v
  · exact ordinary_error (by decide)

theorem ordinary_div (w : Width) (a b : Int) : Ordinary (w.div a b) := by
  unfold Width.div
  split
  · exact ordinary_error (by decide)
  · exact ordinary_confine w _

/-- The logarithm of a positive integer of 128 bits is within its domain. -/
theorem ordinary_ln {x : Int} (h1 : 1 ≤ x) (h : x ≤ Width.u128.greatest) : Ordinary (ln x) := by
  obtain ⟨l, hl⟩ := ln_ok h1 h
  rw [hl]
  exact ordinary_ok l

/-! ## Trades -/

theorem ordinary_outcome (m : Market) (i : Number) : Ordinary (m.outcome i) := by
  unfold outcome
  split
  · split
    · exact ordinary_error (by decide)
    · split
      · exact ordinary_ok _
      · exact ordinary_error (by decide)
  · exact ordinary_error (by decide)

/-- The logarithm of a mint is that of a quotient plus one. -/
theorem ordinary_coveredLn (gain own : Int) : Ordinary (coveredLn gain own) := by
  unfold coveredLn
  refine Ordinary.bind (ordinary_div _ _ _) fun whole _ => ?_
  split
  · exact ordinary_error (by decide)
  refine Ordinary.bind (ordinary_div _ _ _) fun ratio hratio => ?_
  refine Ordinary.bind (ordinary_confine _ _) fun argument hargument => ?_
  obtain ⟨-, hratiofits, rfl⟩ := Width.div_eq_ok_iff.mp hratio
  obtain ⟨hfits, rfl⟩ := Width.add_eq_ok_iff.mp hargument
  have hnonneg : 0 ≤ gain.tdiv own := hratiofits.1
  have hone := FixedPoint.one_pos
  exact ordinary_ln (by omega) hfits.2

theorem ordinary_mintedLn (m : Market) (ratio charge : Int) :
    Ordinary (mintedLn m.pool ratio charge) := by
  unfold mintedLn
  refine Ordinary.bind ?_ fun sum _ => ?_
  · rw [pool_eq]
    exact ordinary_confine _ _
  refine Ordinary.bind (ordinary_confine _ _) fun growth _ => ?_
  exact Ordinary.bind (ordinary_confine _ _) fun gain _ => ordinary_coveredLn _ _

theorem ordinary_sharesOf (scale l : Int) : Ordinary (sharesOf scale l) := by
  unfold sharesOf
  refine Ordinary.bind (ordinary_confine _ _) fun shares _ => ?_
  split
  · exact ordinary_error (by decide)
  split
  · exact ordinary_error (by decide)
  · exact ordinary_ok _

theorem ordinary_mint (m : Market) (j : Fin maxOutcomes) (payment : Int) :
    Ordinary (m.mint j payment) := by
  rw [mint_eq]
  split
  · exact ordinary_error (by decide)
  split
  · exact ordinary_error (by decide)
  split
  · exact ordinary_error (by decide)
  · exact Ordinary.bind (ordinary_mintedLn m _ _) fun l _ => ordinary_sharesOf _ _

theorem ordinary_buy (m : Market) (i : Number) (payment : Int) :
    Ordinary (m.buy i payment).1 := by
  rw [fst_buy]
  refine Ordinary.bind (ordinary_outcome m i) fun j _ => ?_
  refine Ordinary.bind (ordinary_mint m j payment) fun shares _ => ?_
  refine Ordinary.bind (ordinary_confine _ _) fun supply _ => ?_
  exact Ordinary.bind (ordinary_confine _ _) fun reserve _ => ordinary_ok _

theorem ordinary_sharesOut (m : Market) (i : Number) (payment : Int) :
    Ordinary (m.sharesOut i payment) :=
  Ordinary.bind (ordinary_outcome m i) fun j _ => ordinary_mint m j payment

/-! ## Valuations -/

/-- The cost takes the logarithm of the pool, which is at least one. -/
theorem Sound.ordinary_cost {m : Market} (h : m.Sound) : Ordinary m.cost := by
  rw [cost_eq h.outcomes_le h.scale_pos, pool_eq]
  refine Ordinary.bind (ordinary_confine _ _) fun sum hsum => ?_
  obtain ⟨hfits, rfl⟩ := Width.confine_eq_ok_iff.mp hsum
  have hln := ordinary_ln (le_trans (by decide) h.one_le_poolValue) hfits.2
  refine Ordinary.bind hln fun l _ => ?_
  exact Ordinary.bind (ordinary_confine _ _) fun scaled _ => ordinary_confine _ _

theorem Sound.ordinary_prices {m : Market} (h : m.Sound) : Ordinary m.prices := by
  rw [prices_eq h.outcomes_le h.scale_pos, total_eq_pool, pool_eq]
  refine Ordinary.bind (ordinary_confine _ _) fun sum _ => ?_
  split
  · exact ordinary_ok _
  split
  · exact ordinary_ok _
  · exact ordinary_error (by decide)

theorem Sound.ordinary_price {m : Market} (h : m.Sound) (i : Number) : Ordinary (m.price i) :=
  Ordinary.bind (ordinary_outcome m i) fun _ _ =>
    Ordinary.bind h.ordinary_prices fun _ _ => ordinary_ok _

/-- The greatest loss takes the logarithm of the number of outcomes. -/
theorem Sound.ordinary_worstCaseLoss {m : Market} (h : m.Sound) :
    Ordinary (worstCaseLoss m.scale (Number.ofInt m.outcomes)) := by
  obtain ⟨htwo, hle⟩ := h.outcomes_mul_one_bounds
  have hln := ordinary_ln (le_trans (by decide) htwo) hle
  rw [worstCaseLoss, if_neg (not_le.mpr h.scale_pos), h.outcomeCount_eq, ok_bind]
  refine Ordinary.bind hln fun l _ => ?_
  exact Ordinary.bind (ordinary_confine _ _) fun loss _ => ordinary_ok _

theorem Sound.ordinary_quote {m : Market} (h : m.Sound) (i : Number) (payment : Int) :
    Ordinary (m.quote i payment) := by
  refine Ordinary.bind (h.ordinary_price i) fun priceBefore _ => ?_
  refine Ordinary.bind h.ordinary_cost fun costBefore _ => ?_
  refine Ordinary.bind (ordinary_buy m i payment) fun shares hshares => ?_
  have hafter := h.buy (Prod.ext hshares rfl : m.buy i payment = (.ok shares, _))
  refine Ordinary.bind (hafter.ordinary_price i) fun priceAfter _ => ?_
  exact Ordinary.bind hafter.ordinary_cost fun costAfter _ => ordinary_ok _

theorem Sound.ordinary_snapshot {m : Market} (h : m.Sound) : Ordinary m.snapshot := by
  refine Ordinary.bind h.ordinary_cost fun c _ => ?_
  refine Ordinary.bind h.ordinary_prices fun ps _ => ?_
  exact Ordinary.bind h.ordinary_worstCaseLoss fun loss _ => ordinary_ok _

end PredictionMarket.Market
