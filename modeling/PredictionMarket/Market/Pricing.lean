import PredictionMarket.FixedPoint.Exp
import PredictionMarket.FixedPoint.Ln
import PredictionMarket.Market.Apportionment
import PredictionMarket.Market.Basic

/-!
# Cost and prices

The market scores by the logarithmic rule.  With the supplies `q` and the scale
`b`, the cost is `b * ln (∑ exp (q i / b))`, and the price of an outcome is its
share in the sum of the exponentials.  A supply has nine places more than the
scale, so their quotient is a fixed-point number.
-/

namespace PredictionMarket.Market

/-- The exponentials of the outcomes. -/
def exponentials (m : Market) : Except MarketError (List Int) :=
  m.activeSupplies.mapM fun supply => FixedPoint.exp (supply.tdiv m.scale)

/-- The sum of the exponentials `es`, checked after every term. -/
def total (es : List Int) : Except MarketError Int := es.foldlM Width.u128.add 0

/-- The sum of the exponentials of the outcomes. -/
def pool (m : Market) : Except MarketError Int := do
  let es ← m.exponentials
  total es

/-- What must back the shares sold, in the unit of the scale. -/
def cost (m : Market) : Except MarketError Int :=
  if maxOutcomes < m.outcomes then .error .tooManyOutcomes
  else if m.scale ≤ 0 then .error .liquidityParameterIsZero
  else do
    let sum ← m.pool
    let logarithm ← FixedPoint.ln sum
    let scaled ← Width.i128.mul m.scale logarithm
    Width.u64.confine (scaled.tdiv FixedPoint.one)

/-- The prices of the outcomes, which make up one together.  If all exponentials
vanish, so do all prices. -/
def prices (m : Market) : Except MarketError (List Int) :=
  if maxOutcomes < m.outcomes then .error .tooManyOutcomes
  else if m.scale ≤ 0 then .error .liquidityParameterIsZero
  else do
    let es ← m.exponentials
    let sum ← total es
    if sum = 0 then .ok (es.map fun _ => 0)
    else if ∀ e ∈ es, Width.u128.Fits (e * FixedPoint.one) then
      .ok (Apportionment.apportion FixedPoint.one sum es)
    else .error .mathOverflow

/-- The price of one outcome. -/
def price (m : Market) (i : Number) : Except MarketError Int := do
  let j ← m.outcome i
  let ps ← m.prices
  return ps.getD j 0

/-- The most that the maker of a market with `n` outcomes can lose: the cost of
the market before its first trade. -/
def worstCaseLoss (scale : Int) (n : Number) : Except MarketError Int :=
  if scale ≤ 0 then .error .liquidityParameterIsZero
  else do
    let count ← outcomeCount n
    let logarithm ← FixedPoint.ln (count * FixedPoint.one)
    let loss ← Width.i128.mul scale logarithm
    return loss.tdiv FixedPoint.one

end PredictionMarket.Market
