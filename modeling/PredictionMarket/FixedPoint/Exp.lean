import PredictionMarket.FixedPoint.Basic

/-!
# The exponential

`exp` halves its argument until it is at most one half in size, sums the power
series there, and squares the sum back once per halving.  Above `expLimit` it
answers the greatest integer of 128 bits, below `-expLimit` it answers zero.
-/

namespace PredictionMarket.FixedPoint

/-- The least number of halvings that brings a magnitude down to one half. -/
def halvings (magnitude : Nat) : Nat :=
  if magnitude ≤ 500000000 then 0 else halvings ((magnitude + 1) / 2) + 1
termination_by magnitude

/-- The power series at `r`, from the sum `sum` of its terms up to the `n`-th,
which is `term`.  At most `left` further terms are added, and none after the
first that rounds to zero. -/
def expSeries (r : Int) (left n : Nat) (sum term : Int) : Except MarketError Int :=
  match left with
  | 0 => .ok sum
  | left + 1 =>
    let next := ((term * r).tdiv fineOne).tdiv (n + 1)
    if next = 0 then .ok sum
    else do
      let sum ← Width.i128.add sum next
      expSeries r left (n + 1) sum next

/-- Squares a number `h` times over. -/
def squareTimes (h : Nat) (s : Int) : Except MarketError Int :=
  match h with
  | 0 => .ok s
  | h + 1 => do
    let square ← Width.i128.div (s * s) fineOne
    squareTimes h square

/-- The exponential of a number with nine places, with nine places and never
below zero. -/
def exp (x : Int) : Except MarketError Int :=
  if expLimit < x then .ok Width.u128.greatest
  else if x < -expLimit then .ok 0
  else do
    let h := halvings x.natAbs
    let sum ← expSeries ((x * one).tdiv (1 <<< h)) maxTerms 0 fineOne fineOne
    let power ← squareTimes h sum
    return max 0 (power.tdiv one)

end PredictionMarket.FixedPoint
