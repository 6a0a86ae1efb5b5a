import PredictionMarket.Market.Pricing

/-!
# Trades

A payment `a` for an outcome mints the shares that raise the cost by `a`:
`b * ln (S * (exp (a / b) - 1) / e + 1)`, where `S` is the sum of the
exponentials and `e` the one of the outcome.  `sharesOut` computes them, `buy`
books the trade, and `quote` previews it with price and cost on both sides.

`buy` writes to the market, so it answers with the market that it leaves, also
where it refuses.  It has checked everything by the time it writes, which is why
a trade that is refused leaves no trace (`snd_buy_of_error`).
-/

namespace PredictionMarket.Market

/-- The shares that a payment mints of an outcome. -/
def mint (m : Market) (j : Fin maxOutcomes) (payment : Int) : Except MarketError Int :=
  if payment ≤ 0 then .error .depositIsZero
  else if Width.u64.greatest < payment then .error .mathOverflow
  else if m.scale ≤ 0 then .error .liquidityParameterIsZero
  else do
    let sum ← m.pool
    let own ← FixedPoint.exp (m.supplies[j].tdiv m.scale)
    let grown ← FixedPoint.exp ((payment * FixedPoint.one).tdiv m.scale)
    let growth ← Width.u128.sub grown FixedPoint.one
    let gain ← Width.u128.mul sum growth
    let whole ← Width.u128.div (gain.tdiv FixedPoint.one) own
    if whole = 0 then .error .depositIsZero
    else do
      let ratio ← Width.u128.div gain own
      let argument ← Width.u128.add ratio FixedPoint.one
      let logarithm ← FixedPoint.ln argument
      let shares ← Width.i128.mul m.scale logarithm
      if shares ≤ 0 then .error .depositIsZero
      else if Width.u64.greatest < shares then .error .mathOverflow
      else .ok shares

/-- The shares that a payment mints of the outcome that an index names. -/
def sharesOut (m : Market) (i : Number) (payment : Int) : Except MarketError Int := do
  let j ← m.outcome i
  m.mint j payment

/-- Mints the shares that a payment buys and takes the payment.  The answer is
the shares, or why there are none, and the market afterwards. -/
def buy (m : Market) (i : Number) (payment : Int) : Except MarketError Int × Market :=
  match m.outcome i with
  | .error e => (.error e, m)
  | .ok j =>
    match m.mint j payment with
    | .error e => (.error e, m)
    | .ok shares =>
      match Width.u64.add m.supplies[j] shares with
      | .error e => (.error e, m)
      | .ok supply =>
        match Width.u64.add m.reserves[j] payment with
        | .error e => (.error e, m)
        | .ok reserve =>
          let m := { m with supplies := m.supplies.set j supply }
          let m := { m with reserves := m.reserves.set j reserve }
          (.ok shares, m)

/-- The preview of a trade. -/
structure Quote where
  /-- The shares that the payment buys. -/
  sharesOut : Int
  /-- The price of the outcome before the trade. -/
  priceBefore : Int
  /-- The price of the outcome after the trade. -/
  priceAfter : Int
  /-- The cost of the market before the trade. -/
  costBefore : Int
  /-- The cost of the market after the trade. -/
  costAfter : Int
deriving DecidableEq, Repr

/-- Previews the trade that a payment would make.  The trade is made on a copy.
Markets are values here, so `m` is its own copy, and as no market is answered, a
preview leaves every market alone by construction. -/
def quote (m : Market) (i : Number) (payment : Int) : Except MarketError Quote := do
  let priceBefore ← m.price i
  let costBefore ← m.cost
  let (result, after) := m.buy i payment
  let shares ← result
  let priceAfter ← after.price i
  let costAfter ← after.cost
  return {
    sharesOut := shares
    priceBefore := priceBefore
    priceAfter := priceAfter
    costBefore := costBefore
    costAfter := costAfter
  }

/-- An order: the index of an outcome and a payment for it. -/
structure Order where
  /-- The index of the outcome. -/
  outcome : Number
  /-- The payment. -/
  payment : Int
deriving DecidableEq, Repr

/-- The market after an order, whether it is carried out or refused. -/
def execute (m : Market) (o : Order) : Market := (m.buy o.outcome o.payment).2

/-- The market after a sequence of orders. -/
def executeAll (m : Market) (orders : List Order) : Market := orders.foldl execute m

end PredictionMarket.Market
