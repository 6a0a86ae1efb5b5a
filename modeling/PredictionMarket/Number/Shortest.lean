import PredictionMarket.Number.Binary64

/-!
# The fewest digits that read back

Of all decimals that round to a given floating-point number, `shortest` picks one
with the fewest digits, of those the one nearest to the number, and of two at the
same distance the even one.

If any decimal with a given number of digits rounds to a number, one of the two
around the number on that grid does, so `onGrid?` looks at these two only.
-/

namespace PredictionMarket.Number

/-- The rational `c * 10 ^ x`. -/
def decimalValue (c : Nat) (x : Int) : Rat :=
  mkRat (c * Nat.pow 10 x.toNat : Nat) (Nat.pow 10 (-x).toNat)

/-- The exponent of the greatest power of ten up to `n / d`, both positive. -/
def floorLog10 (n d : Nat) : Int :=
  if d ≤ n then ((Nat.toDigits 10 (n / d)).length : Int) - 1
  else -((Nat.toDigits 10 ((d + n - 1) / n - 1)).length : Int)

/-- The multiple of `10 ^ x` that rounds to the positive `q`, the nearer one if
both of the multiples around `q` do. -/
def onGrid? (q : Rat) (x : Int) : Option Nat :=
  let a := q.num.natAbs * Nat.pow 10 (-x).toNat
  let b := q.den * Nat.pow 10 x.toNat
  let below := a / b
  let hitBelow : Bool := nearest (decimalValue below x) = finite q
  let hitAbove : Bool := nearest (decimalValue (below + 1) x) = finite q
  if hitBelow && hitAbove then some (roundHalfEven a b)
  else if hitBelow then some below
  else if hitAbove then some (below + 1)
  else none

/-- The digits, as an integer, and the exponent of the last one, of the shortest
decimal for the positive `q`.  Seventeen digits always suffice. -/
def shortest (q : Rat) : Nat × Int :=
  let last := floorLog10 q.num.natAbs q.den
  let found := (List.range 17).findSome? fun (k : Nat) =>
    (onGrid? q (last - k)).map fun c => (c, last - k)
  found.getD (q.num.natAbs, 0)

end PredictionMarket.Number
