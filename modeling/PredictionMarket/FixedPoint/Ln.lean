import PredictionMarket.FixedPoint.Basic
import PredictionMarket.SquareRoot

/-!
# The natural logarithm

`ln` brings its argument into the range from one to two, by inverting it where
it is below one and dividing it by Euler's number where it is above two.  Square
roots then bring it below `seriesCeiling`, where the alternating series runs.
Each root halves the logarithm, so the sum is doubled back once per root.
-/

namespace PredictionMarket.FixedPoint

/-- The series of the logarithm runs up to this number. -/
def seriesCeiling : Int := 1062500000000000000

/-- The state of a reduction: the logarithm sought is `sign` times the logarithm
of `value`, plus `offset`. -/
structure Reduction where
  /-- The number whose logarithm is still to be taken. -/
  value : Int
  /-- One or minus one. -/
  sign : Int
  /-- What the divisions by Euler's number have taken out so far. -/
  offset : Int
deriving DecidableEq, Repr

namespace Reduction

/-- The reduction of `x` before its first step. -/
def start (x : Int) : Reduction := ⟨x * one, 1, 0⟩

/-- The number lies between one and two. -/
def Done (r : Reduction) : Prop := fineOne ≤ r.value ∧ r.value ≤ 2 * fineOne

instance (r : Reduction) : Decidable r.Done := inferInstanceAs (Decidable (_ ∧ _))

/-- Inverts a number below one, and divides any other by Euler's number. -/
def step (r : Reduction) : Reduction :=
  if r.value < fineOne then
    { r with value := fineOne * fineOne / r.value, sign := -r.sign }
  else
    { r with value := r.value * fineOne / fineEuler, offset := r.offset + r.sign * fineOne }

/-- Takes steps until the number lies between one and two, at most `left` of
them. -/
def run (left : Nat) (r : Reduction) : Except MarketError Reduction :=
  if r.Done then .ok r
  else match left with
    | 0 => .error .mathOverflow
    | left + 1 => run left r.step

end Reduction

/-- A square root of a number above `seriesCeiling` is smaller than the number. -/
theorem floorSqrt_mul_fineOne_lt {v : Int} (hv : seriesCeiling < v) :
    floorSqrt (v * fineOne) < v := by
  have hceil : fineOne < seriesCeiling := by decide
  have hone : (0 : Int) < fineOne := by decide
  have hpos : 0 < v := by omega
  have hsq := floorSqrt_sq_le (Int.mul_nonneg (Int.le_of_lt hpos) (Int.le_of_lt hone))
  refine Int.not_le.mp fun hle => ?_
  have hvv : v * v ≤ floorSqrt (v * fineOne) * floorSqrt (v * fineOne) :=
    Int.mul_le_mul hle hle (Int.le_of_lt hpos) (by omega)
  have hlt : v * fineOne < v * v := Int.mul_lt_mul_of_pos_left (by omega) hpos
  omega

/-- Takes square roots until the number is at most `seriesCeiling`, and counts
them. -/
def takeRoots (v : Int) : Int × Nat :=
  if _ : seriesCeiling < v then
    let (w, count) := takeRoots (floorSqrt (v * fineOne))
    (w, count + 1)
  else (v, 0)
termination_by v.toNat
decreasing_by
  have hpos : 0 < seriesCeiling := by decide
  have hlt := floorSqrt_mul_fineOne_lt ‹seriesCeiling < v›
  omega

/-- The series of the logarithm of `1 + y`, from the sum `sum` of the terms
before the `n`-th, whose power of `y` is `power`.  At most `left` further terms
are added, and none after the first that rounds to zero. -/
def lnSeries (y : Int) (left n : Nat) (sum power : Int) : Except MarketError Int :=
  match left with
  | 0 => .ok sum
  | left + 1 =>
    let magnitude := power.tdiv n
    if magnitude = 0 then .ok sum
    else do
      let sum ← Width.i128.add sum (if n % 2 = 1 then magnitude else -magnitude)
      lnSeries y left (n + 1) sum ((power * y).tdiv fineOne)

/-- The natural logarithm of a number with nine places, with nine places.  There
is none of a number that is not positive. -/
def ln (x : Int) : Except MarketError Int :=
  if x ≤ 0 then .error .mathDomain
  else if x = one then .ok 0
  else do
    let r ← Reduction.run maxReductions (Reduction.start x)
    let (v, roots) := takeRoots r.value
    let series ← lnSeries (v - fineOne) maxTerms 1 0 (v - fineOne)
    return (r.offset + r.sign * (series <<< roots)).tdiv one

end PredictionMarket.FixedPoint
