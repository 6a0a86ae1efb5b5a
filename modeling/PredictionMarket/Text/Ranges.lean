/-!
# Ranges of codes

A class of characters is written as ranges of their codes.
-/

namespace PredictionMarket.Text

/-- The code lies in one of the ranges, which rise and do not meet. -/
def inRanges : List (Nat × Nat) → Nat → Bool
  | [], _ => false
  | (first, last) :: rest, n => first ≤ n && (n ≤ last || inRanges rest n)

/-- The value of the range in which the code lies, where the ranges rise and do not
meet. -/
def rangeValue? : List (Nat × Nat × Nat) → Nat → Option Nat
  | [], _ => none
  | (first, last, value) :: rest, n =>
    if n < first then none else if n ≤ last then some value else rangeValue? rest n

end PredictionMarket.Text
