import PredictionMarket.Decimal
import PredictionMarket.FixedPoint.Basic

/-!
# The text of a fixed-point number

A number with nine places is written with all of them, behind a minus sign where
it is negative: `-0.731058578`.  It is divided by one as a decimal, and the
quotient keeps twenty significant digits, so only below `10 ^ 20` is the text
exact.

`units?` reads such a text back, as the integer that counts its last place.
-/

namespace PredictionMarket.FixedPoint

/-- The text of a number with nine places, which is divided as a decimal first. -/
def text (v : Int) : String := Decimal.toFixed 9 (Decimal.div (Rat.ofInt v) (Rat.ofInt one))

/-- The natural whose last nine digits stand behind the point. -/
def unsignedUnits? (cs : List Char) : Option Nat :=
  let whole := cs.takeWhile (· ≠ '.')
  match cs.dropWhile (· ≠ '.') with
  | '.' :: places =>
    if places.length = 9 ∧ Text.IsNatural whole ∧ Text.IsNatural places then
      Text.natural? (whole ++ places)
    else none
  | _ => none

/-- The number with nine places that a text names. -/
def units? (s : String) : Option Int :=
  match s.toList with
  | '-' :: cs => (unsignedUnits? cs).map fun (n : Nat) => -(n : Int)
  | cs => (unsignedUnits? cs).map fun (n : Nat) => (n : Int)

end PredictionMarket.FixedPoint
