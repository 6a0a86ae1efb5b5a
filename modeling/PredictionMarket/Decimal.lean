import PredictionMarket.Number.Shortest
import PredictionMarket.Text.Digits

/-!
# Decimal arithmetic

Exact numbers are divided and written by a library for decimals, whose behaviour
this is.  A decimal is the rational that it is.  `div` keeps `precision`
significant digits of a quotient, and `toFixed` writes a decimal with a fixed
number of places and never with an exponent.  Both round to the nearest and a tie
away from zero: `div_spec` says it of quotients, and of texts `isDecimal_toFixed` and
`units?_toFixed` do.
-/

namespace PredictionMarket.Decimal

/-- How many significant digits a quotient keeps. -/
def precision : Nat := 20

/-- The integer nearest to a rational, and of two the one farther from zero. -/
def roundHalfAway (q : Rat) : Int :=
  if q < 0 then -(mkRat 1 2 - q).floor else (mkRat 1 2 + q).floor

/-- The multiple of `unit` nearest to a rational, and of two the one farther from
zero. -/
def roundTo (unit q : Rat) : Rat := Rat.ofInt (roundHalfAway (q / unit)) * unit

/-- The unit of the last digit that is kept of a rational other than zero. -/
def lastUnit (q : Rat) : Rat :=
  Number.decimalValue 1 (Number.floorLog10 q.num.natAbs q.den + 1 - precision)

/-- The quotient of two decimals, the second of which is not zero. -/
def div (x y : Rat) : Rat :=
  let q := x / y
  if q = 0 then 0 else roundTo (lastUnit q) q

/-- The text of a decimal with one place or more. -/
def toFixed (places : Nat) (x : Rat) : String :=
  let unit := Nat.pow 10 places
  let n := (roundHalfAway (x * Rat.ofInt unit)).natAbs
  let written := Text.decimal (n / unit) ++ '.' :: Text.padded places (n % unit)
  String.ofList (if x < 0 then '-' :: written else written)

end PredictionMarket.Decimal
