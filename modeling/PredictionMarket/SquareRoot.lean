/-!
# The floor of a square root

`newtonDescent` starts above the root and takes Newton's step, both of its
divisions rounded down, for as long as the step goes down.  Where it stops the
square is at most the number: `newtonDescent_sq_le` reads that off the step that
did not go down.
-/

namespace PredictionMarket

/-- Newton's descent for the square root of `n`, from `x`. -/
def newtonDescent (n x : Nat) : Nat :=
  if (x + n / x) / 2 < x then newtonDescent n ((x + n / x) / 2) else x
termination_by x

/-- The integer whose square is the greatest square up to `n`.  A negative `n`
has none and is its own answer. -/
def floorSqrt (n : Int) : Int :=
  if n < 2 then n else newtonDescent n.toNat n.toNat

/-- The descent ends at or below the root. -/
theorem newtonDescent_sq_le (n x : Nat) : newtonDescent n x * newtonDescent n x ≤ n := by
  induction x using Nat.strongRecOn with
  | _ x ih =>
    rw [newtonDescent]
    split
    · rename_i hdown
      exact ih _ hdown
    · rename_i hstop
      have hquot : x ≤ n / x := by omega
      calc x * x ≤ n / x * x := Nat.mul_le_mul_right x hquot
        _ ≤ n := Nat.div_mul_le_self n x

/-- The square of the floor root is at most the number. -/
theorem floorSqrt_sq_le {n : Int} (hn : 0 ≤ n) : floorSqrt n * floorSqrt n ≤ n := by
  rw [floorSqrt]
  split
  · have hcases : n = 0 ∨ n = 1 := by omega
    rcases hcases with rfl | rfl <;> decide
  · have h := newtonDescent_sq_le n.toNat n.toNat
    have hcast : ((n.toNat : Nat) : Int) = n := Int.toNat_of_nonneg hn
    calc (newtonDescent n.toNat n.toNat : Int) * newtonDescent n.toNat n.toNat
        ≤ (n.toNat : Int) := by exact_mod_cast h
      _ = n := hcast

end PredictionMarket
