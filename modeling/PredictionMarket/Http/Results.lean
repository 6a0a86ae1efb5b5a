import PredictionMarket.FixedPoint.Decimal
import PredictionMarket.Json.Basic
import PredictionMarket.Registry.Basic

/-!
# Results as JSON

Amounts are written as texts, which keep all their digits, and counts, indices
and times as numbers.  A price is written twice, as the integer that it is and as
a decimal with nine places.
-/

namespace PredictionMarket

/-- Integers as texts. -/
def Json.digitsOf (zs : List Int) : Json := .array (zs.map Json.digits)

/-- The snapshot of a market as JSON. -/
def Market.Snapshot.toJson (s : Market.Snapshot) : Json :=
  .object [
    ("admin", .text s.market.admin),
    ("cost", .digits s.cost),
    ("initializedAt", .number s.market.openedAt),
    ("label", .text s.market.label),
    ("numOutcomes", .ofInt s.market.outcomes),
    ("prices", .digitsOf s.prices),
    ("probabilities", .texts (s.prices.map fun price => FixedPoint.text price)),
    ("reserves", .digitsOf s.market.activeReserves),
    ("resolveAt", .number s.market.resolveAt),
    ("scale", .digits s.market.scale),
    ("supplies", .digitsOf s.market.activeSupplies),
    ("worstCaseLoss", .digits s.worstCaseLoss)]

/-- The preview of a purchase as JSON. -/
def Market.Quote.toJson (q : Market.Quote) (label : Text) (outcome : Number) (payment : Int) :
    Json :=
  .object [
    ("amountIn", .digits payment),
    ("costAfter", .digits q.costAfter),
    ("costBefore", .digits q.costBefore),
    ("label", .text label),
    ("outcomeIndex", .number outcome),
    ("priceAfter", .digits q.priceAfter),
    ("priceBefore", .digits q.priceBefore),
    ("sharesOut", .digits q.sharesOut)]

/-- What a buyer is told as JSON. -/
def Receipt.toJson (r : Receipt) (label : Text) (outcome : Number) (payment : Int) : Json :=
  .object [
    ("amountIn", .digits payment),
    ("cost", .digits r.cost),
    ("label", .text label),
    ("outcomeIndex", .number outcome),
    ("prices", .digitsOf r.prices),
    ("sharesMinted", .digits r.sharesMinted)]

/-- A refusal as JSON. -/
def MarketError.toJson (e : MarketError) : Json :=
  .object [("error", .text e.code), ("message", .text e.message)]

end PredictionMarket
