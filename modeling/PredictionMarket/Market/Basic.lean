import PredictionMarket.Error
import PredictionMarket.Number.Binary64
import PredictionMarket.Text.Basic

/-!
# Markets

A market sells shares in each of a few outcomes.  `supplies` counts the shares
sold, in units of `10 ^ -9`, and `reserves` the payments taken for them, in the
smallest unit of the settlement asset.  Both have room for `maxOutcomes`
outcomes, and the market has the first `outcomes` of them.

`Market.ofTerms` opens a market.  It asks for a number of outcomes from
`minOutcomes` up to `maxOutcomes`, a positive liquidity scale, a label of at most
`maxLabelBytes` bytes and a resolve time later than the least duration from now.
-/

namespace PredictionMarket

/-- The number of outcomes that there is room for. -/
abbrev maxOutcomes : Nat := 16

/-- The least number of outcomes worth a market. -/
abbrev minOutcomes : Nat := 2

/-- The greatest length of a label, in bytes of UTF-8. -/
abbrev maxLabelBytes : Nat := 32

/-- What a market is asked for with. -/
structure Terms where
  /-- The name of the market. -/
  label : Text
  /-- Who may administer the market. -/
  admin : Text
  /-- The number of outcomes. -/
  outcomes : Number
  /-- The liquidity scale. -/
  scale : Int
  /-- The time at which trading ends. -/
  resolveAt : Number
deriving DecidableEq, Repr

/-- A market. -/
structure Market where
  /-- The name of the market. -/
  label : Text
  /-- Who may administer the market. -/
  admin : Text
  /-- The number of outcomes. -/
  outcomes : Nat
  /-- The liquidity scale, in the smallest unit of the settlement asset. -/
  scale : Int
  /-- The time of the creation, in seconds. -/
  openedAt : Number
  /-- The time at which trading ends, in seconds. -/
  resolveAt : Number
  /-- The shares sold of each outcome. -/
  supplies : Vector Int maxOutcomes
  /-- The payments taken for each outcome. -/
  reserves : Vector Int maxOutcomes
deriving DecidableEq, Repr

/-- The number of outcomes that a number asks for. -/
def outcomeCount (x : Number) : Except MarketError Nat :=
  match x.whole? with
  | none => .error .notEnoughOutcomes
  | some z =>
    if z < minOutcomes then .error .notEnoughOutcomes
    else if maxOutcomes < z then .error .tooManyOutcomes
    else .ok z.toNat

namespace Market

/-- A market on the given terms, opened at the time `now` and without a trade so
far.  It has to stay open for longer than `minDuration`. -/
def ofTerms (terms : Terms) (now minDuration : Number) : Except MarketError Market := do
  let outcomes ← outcomeCount terms.outcomes
  if terms.scale ≤ 0 then .error .liquidityParameterIsZero
  else if maxLabelBytes < terms.label.utf8Size then .error .invalidLabelLength
  else if terms.resolveAt ≤ now + minDuration then .error .marketTooQuick
  else
    .ok {
      label := terms.label
      admin := terms.admin
      outcomes := outcomes
      scale := terms.scale
      openedAt := now
      resolveAt := terms.resolveAt
      supplies := Vector.replicate maxOutcomes 0
      reserves := Vector.replicate maxOutcomes 0
    }

/-- The outcome that an index names. -/
def outcome (m : Market) (i : Number) : Except MarketError (Fin maxOutcomes) :=
  if hroom : m.outcomes ≤ maxOutcomes then
    match i.whole? with
    | none => .error .invalidOutcomeIndex
    | some z =>
      if hz : 0 ≤ z ∧ z < m.outcomes then .ok ⟨z.toNat, by omega⟩
      else .error .invalidOutcomeIndex
  else .error .tooManyOutcomes

/-- The shares sold of the outcomes that the market has. -/
def activeSupplies (m : Market) : List Int := m.supplies.toList.take m.outcomes

/-- The payments taken for the outcomes that the market has. -/
def activeReserves (m : Market) : List Int := m.reserves.toList.take m.outcomes

end Market

end PredictionMarket
