/-!
# Largest remainders

`apportion units weights` shares out whole units in proportion to weights.  Each
weight first gets its exact share rounded down.  The units still left go one by
one to the weights whose shares lost most by the rounding, and of equal losses to
the earlier weight.
-/

namespace PredictionMarket.Apportionment

/-- The exact share of a weight, rounded down. -/
def quota (units total weight : Int) : Int := weight * units / total

/-- What the rounding took from the share of a weight, in parts of `total`. -/
def remainder (units total weight : Int) : Int := weight * units % total

/-- How many of the remainders `rs` come before the remainder `r` at place `i`:
the greater ones, and the equal ones at an earlier place. -/
def rank (rs : List Int) (r : Int) (i : Nat) : Nat :=
  rs.zipIdx.countP fun (s, j) => r < s ∨ (s = r ∧ j < i)

/-- The units that the quotas leave. -/
def leftover (units total : Int) (weights : List Int) : Int :=
  weights.foldr (fun w left => left - quota units total w) units

/-- The shares of the weights, `total` of them altogether, in `units`. -/
def apportion (units total : Int) (weights : List Int) : List Int :=
  let remainders := weights.map (remainder units total)
  let spare := leftover units total weights
  weights.zipIdx.map fun (w, i) =>
    let place : Int := rank remainders (remainder units total w) i
    quota units total w + if place < spare then 1 else 0

/-- Every weight has its share. -/
@[simp] theorem length_apportion (units total : Int) (weights : List Int) :
    (apportion units total weights).length = weights.length := by
  rw [apportion, List.length_map, List.length_zipIdx]

end PredictionMarket.Apportionment
