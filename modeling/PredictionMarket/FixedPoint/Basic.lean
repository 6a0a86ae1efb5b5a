import PredictionMarket.Width

/-!
# Fixed-point numbers

Outside, a number is an integer that counts units of `10 ^ -9`.  Inside the
series it counts units of `10 ^ -18`, so that the nine outer places survive the
rounding of every step.  Divisions round toward zero throughout.
-/

namespace PredictionMarket.FixedPoint

/-- The number one, with nine places. -/
def one : Int := 1000000000

/-- The number one, with the eighteen places of the series. -/
def fineOne : Int := 1000000000000000000

/-- Euler's number, with nine places. -/
def euler : Int := 2718281828

/-- Euler's number, with eighteen places. -/
def fineEuler : Int := 2718281828459045235

/-- The exponential saturates above this argument and vanishes below its
negative. -/
def expLimit : Int := 20 * one

/-- How many terms of a series are added at most. -/
def maxTerms : Nat := 20

/-- How many reductions a logarithm takes at most. -/
def maxReductions : Nat := 256

end PredictionMarket.FixedPoint
