import PredictionMarket.Error
import PredictionMarket.Width
import PredictionMarket.SquareRoot
import PredictionMarket.Text.Basic
import PredictionMarket.Text.Blank
import PredictionMarket.Text.Digits
import PredictionMarket.Text.Percent
import PredictionMarket.Text.Ranges
import PredictionMarket.Text.Units
import PredictionMarket.Number.Basic
import PredictionMarket.Number.Binary64
import PredictionMarket.Number.Shortest
import PredictionMarket.Number.Notation
import PredictionMarket.Number.Literal
import PredictionMarket.Decimal
import PredictionMarket.FixedPoint.Basic
import PredictionMarket.FixedPoint.Exp
import PredictionMarket.FixedPoint.Ln
import PredictionMarket.FixedPoint.Decimal
import PredictionMarket.Market.Apportionment
import PredictionMarket.Market.Basic
import PredictionMarket.Market.Pricing
import PredictionMarket.Market.Trade
import PredictionMarket.Market.Snapshot
import PredictionMarket.Settings
import PredictionMarket.Registry.Basic
import PredictionMarket.Registry.Session
import PredictionMarket.Json.Basic
import PredictionMarket.Json.Malformed
import PredictionMarket.Json.Order
import PredictionMarket.Json.Reader
import PredictionMarket.Request.Fault
import PredictionMarket.Request.Field
import PredictionMarket.Request.Forms
import PredictionMarket.Http.Host
import PredictionMarket.Http.Host.Address
import PredictionMarket.Http.Host.Folding.Barred
import PredictionMarket.Http.Host.Folding.Changed
import PredictionMarket.Http.Host.Folding.Plain
import PredictionMarket.Http.Host.Folding
import PredictionMarket.Http.Host.Mark
import PredictionMarket.Http.Host.Composition
import PredictionMarket.Http.Host.Direction
import PredictionMarket.Http.Host.Joiner
import PredictionMarket.Http.Host.Spelling
import PredictionMarket.Http.Host.Domain
import PredictionMarket.Http.Query
import PredictionMarket.Http.Target
import PredictionMarket.Http.Target.Scheme
import PredictionMarket.Http.Target.Path
import PredictionMarket.Http.Method
import PredictionMarket.Http.Request
import PredictionMarket.Http.Route
import PredictionMarket.Http.Objection
import PredictionMarket.Http.Origin
import PredictionMarket.Http.Failure
import PredictionMarket.Http.Results
import PredictionMarket.Http.Reply
import PredictionMarket.Http.Service
import PredictionMarket.Proofs.Apportionment
import PredictionMarket.Proofs.Number.Order
import PredictionMarket.Proofs.Decimal
import PredictionMarket.Proofs.Text.Digits
import PredictionMarket.Proofs.Text.Percent
import PredictionMarket.Proofs.Json.Reader
import PredictionMarket.Proofs.Request.Orders
import PredictionMarket.Proofs.FixedPoint.Rounding
import PredictionMarket.Proofs.FixedPoint.ExpSeries
import PredictionMarket.Proofs.FixedPoint.ExpError
import PredictionMarket.Proofs.FixedPoint.ExpOrder
import PredictionMarket.Proofs.FixedPoint.LnSeries
import PredictionMarket.Proofs.FixedPoint.LnReduction
import PredictionMarket.Proofs.FixedPoint.LnError
import PredictionMarket.Proofs.FixedPoint.LnCourse
import PredictionMarket.Proofs.FixedPoint.LnOrder
import PredictionMarket.Proofs.FixedPoint.Accuracy
import PredictionMarket.Proofs.FixedPoint.RoundTrip
import PredictionMarket.Proofs.FixedPoint.Decimal
import PredictionMarket.Proofs.Market.Pool
import PredictionMarket.Proofs.Market.Mint
import PredictionMarket.Proofs.Market.Valuation
import PredictionMarket.Proofs.Market.Refusals
import PredictionMarket.Proofs.Market.Prices
import PredictionMarket.Proofs.Market.Probabilities
import PredictionMarket.Proofs.Market.MintError
import PredictionMarket.Proofs.Market.CostTracking
import PredictionMarket.Proofs.Market.Run
import PredictionMarket.Proofs.Market.BoundedLoss
import PredictionMarket.Proofs.Market.Ledger
import PredictionMarket.Proofs.Market.Liveness
import PredictionMarket.Proofs.Market.CostGrowth
import PredictionMarket.Proofs.Market.CostBounds
import PredictionMarket.Proofs.Market.Admission
import PredictionMarket.Proofs.Market.PaymentOrder
import PredictionMarket.Proofs.Market.PriceOrder
import PredictionMarket.Proofs.Market.PaymentWorth
import PredictionMarket.Proofs.Market.Redenomination
import PredictionMarket.Proofs.Market.Reordering
import PredictionMarket.Proofs.Registry.Reachable
import PredictionMarket.Proofs.Registry.Entries
import PredictionMarket.Proofs.Registry.Change
import PredictionMarket.Proofs.Registry.Purchase
import PredictionMarket.Proofs.Registry.Openings
import PredictionMarket.Proofs.Registry.Closing
import PredictionMarket.Proofs.Registry.Isolation
import PredictionMarket.Proofs.Http.Effect
import PredictionMarket.Proofs.Http.Answers
import PredictionMarket.Proofs.Http.Creation
import PredictionMarket.Proofs.Http.Scale
import PredictionMarket.Proofs.Http.Paths
import PredictionMarket.Proofs.Http.Listing
