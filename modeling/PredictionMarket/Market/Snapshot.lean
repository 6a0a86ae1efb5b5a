import PredictionMarket.Market.Pricing

/-!
# Snapshots

A snapshot shows a market together with what its pricing says of it.  There is
one only where cost, prices and the greatest loss can all be told, and of several
causes against it the first in this order is reported.
-/

namespace PredictionMarket.Market

/-- A market with its cost, its prices and its greatest loss. -/
structure Snapshot where
  /-- The market. -/
  market : Market
  /-- What must back the shares sold. -/
  cost : Int
  /-- The prices of the outcomes. -/
  prices : List Int
  /-- The most that the maker of the market can lose. -/
  worstCaseLoss : Int
deriving DecidableEq, Repr

/-- The snapshot of a market. -/
def snapshot (m : Market) : Except MarketError Snapshot := do
  let cost ← m.cost
  let prices ← m.prices
  let loss ← worstCaseLoss m.scale (Number.ofInt m.outcomes)
  return { market := m, cost := cost, prices := prices, worstCaseLoss := loss }

end PredictionMarket.Market
