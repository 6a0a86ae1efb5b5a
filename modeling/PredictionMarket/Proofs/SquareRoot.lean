import Mathlib.Logic.Function.Iterate
import Mathlib.Tactic.Linarith
import PredictionMarket.SquareRoot

/-!
# The floor root is the root

`newtonDescent` stops at or below the root of its number, as
`newtonDescent_sq_le` says.  This module adds the other half, and says how the
descent gets there.

`newtonStep` is one step.  `newtonDescent_eq_iterate` unrolls the descent into
finitely many of them, each of which goes down, and `lt_iterate_newtonStep_succ_sq`
is the invariant: no step falls a whole unit below the root.  So the end does not
either (`lt_succ_floorSqrt_sq`).
-/

namespace PredictionMarket

/-- Newton's step toward the square root of `n`, both divisions rounded down. -/
def newtonStep (n x : Nat) : Nat := (x + n / x) / 2

/-- Newton's step never falls a whole unit below the root.  Twice the step, with
both roundings made good, is a sum of two numbers whose product is above `n`. -/
theorem lt_newtonStep_succ_sq {n x : Nat} (hx : 0 < x) :
    n < (newtonStep n x + 1) * (newtonStep n x + 1) := by
  have hquot : n < x * (n / x + 1) := Nat.lt_mul_div_succ n hx
  have hstep : x + (n / x + 1) ≤ 2 * (newtonStep n x + 1) := by
    rw [newtonStep]
    omega
  have hamgm : 4 * (x * (n / x + 1)) ≤ (x + (n / x + 1)) * (x + (n / x + 1)) := by
    zify
    nlinarith [sq_nonneg ((x : Int) - (n / x + 1))]
  have hsq := Nat.mul_le_mul hstep hstep
  nlinarith

/-- What is less than a unit below the root of a positive number is positive. -/
theorem pos_of_lt_succ_sq {n x : Nat} (hn : 0 < n) (h : n < (x + 1) * (x + 1)) : 0 < x := by
  refine Nat.pos_of_ne_zero ?_
  rintro rfl
  omega

/-- Steps that start less than a unit below the root, or above it, stay there. -/
theorem lt_iterate_newtonStep_succ_sq {n x : Nat} (hn : 0 < n) (h : n < (x + 1) * (x + 1))
    (k : Nat) : n < ((newtonStep n)^[k] x + 1) * ((newtonStep n)^[k] x + 1) := by
  induction k with
  | zero => exact h
  | succ k ih =>
    rw [Function.iterate_succ_apply']
    exact lt_newtonStep_succ_sq (pos_of_lt_succ_sq hn ih)

/-- A descent is finitely many steps, each of which goes down, to a place from which
the next one would not. -/
theorem newtonDescent_eq_iterate (n x : Nat) :
    ∃ steps, newtonDescent n x = (newtonStep n)^[steps] x ∧
      (∀ k < steps, newtonStep n ((newtonStep n)^[k] x) < (newtonStep n)^[k] x) ∧
      newtonDescent n x ≤ newtonStep n (newtonDescent n x) := by
  induction x using Nat.strongRecOn with
  | _ x ih =>
    rw [newtonDescent]
    -- the test of the loop is whether the step goes down
    split
    · rename_i hdown
      obtain ⟨steps, hend, hsteps, hstop⟩ := ih _ hdown
      refine ⟨steps + 1, hend, ?_, hstop⟩
      intro k hk
      cases k with
      | zero => exact hdown
      | succ k => exact hsteps k (by omega)
    · rename_i hstop
      exact ⟨0, rfl, fun k hk => absurd hk (Nat.not_lt_zero k), Nat.not_lt.mp hstop⟩

/-- From two on the floor root is the end of the descent from the number itself. -/
theorem floorSqrt_natCast {n : Nat} (hn : 2 ≤ n) : floorSqrt n = newtonDescent n n := by
  rw [floorSqrt, if_neg (by omega), Int.toNat_natCast]

/-- The floor root is not negative. -/
theorem floorSqrt_nonneg {n : Int} (hn : 0 ≤ n) : 0 ≤ floorSqrt n := by
  rw [floorSqrt]
  split
  · exact hn
  · exact Int.natCast_nonneg _

/-- A number lies below the square of its next integer. -/
theorem lt_succ_self_sq (n : Nat) : n < (n + 1) * (n + 1) := by nlinarith

/-- The number lies below the square of the next integer. -/
theorem lt_succ_floorSqrt_sq {n : Int} (hn : 0 ≤ n) :
    n < (floorSqrt n + 1) * (floorSqrt n + 1) := by
  obtain ⟨n, rfl⟩ := Int.eq_ofNat_of_zero_le hn
  rcases Nat.lt_or_ge n 2 with hlt | hge
  · rw [floorSqrt, if_pos (by omega)]
    exact_mod_cast lt_succ_self_sq n
  · obtain ⟨steps, hend, -⟩ := newtonDescent_eq_iterate n n
    rw [floorSqrt_natCast hge, hend]
    exact_mod_cast lt_iterate_newtonStep_succ_sq (by omega) (lt_succ_self_sq n) steps

/-- A greater number has no smaller root. -/
theorem floorSqrt_mono {n n' : Int} (hn : 0 ≤ n) (h : n ≤ n') : floorSqrt n ≤ floorSqrt n' := by
  have hsq : floorSqrt n * floorSqrt n < (floorSqrt n' + 1) * (floorSqrt n' + 1) :=
    calc floorSqrt n * floorSqrt n ≤ n := floorSqrt_sq_le hn
      _ ≤ n' := h
      _ < (floorSqrt n' + 1) * (floorSqrt n' + 1) := lt_succ_floorSqrt_sq (hn.trans h)
  have hroot := floorSqrt_nonneg (hn.trans h)
  exact Int.lt_add_one_iff.mp (lt_of_mul_self_lt_mul_self₀ (by omega) hsq)

/-- The floor root is the root, rounded down, and keeps the order of the numbers.  From
two on Newton's descent leads there from the number itself, in finitely many steps.  Each
of them goes down, none divides by zero, and the next one would not go down. -/
theorem floorSqrt_ends_descent :
    (∀ n : Int, 0 ≤ n → 0 ≤ floorSqrt n ∧ floorSqrt n * floorSqrt n ≤ n ∧
      n < (floorSqrt n + 1) * (floorSqrt n + 1)) ∧
    (∀ n : Nat, 2 ≤ n → ∃ steps, floorSqrt n = (newtonStep n)^[steps] n ∧
      (∀ k < steps, newtonStep n ((newtonStep n)^[k] n) < (newtonStep n)^[k] n) ∧
      (newtonStep n)^[steps] n ≤ newtonStep n ((newtonStep n)^[steps] n) ∧
      ∀ k, 0 < (newtonStep n)^[k] n) ∧
    ∀ n n' : Int, 0 ≤ n → n ≤ n' → floorSqrt n ≤ floorSqrt n' := by
  refine ⟨?_, ?_, ?_⟩
  · intro n hn
    exact ⟨floorSqrt_nonneg hn, floorSqrt_sq_le hn, lt_succ_floorSqrt_sq hn⟩
  · intro n hn
    obtain ⟨steps, hend, hsteps, hstop⟩ := newtonDescent_eq_iterate n n
    refine ⟨steps, ?_, hsteps, ?_, ?_⟩
    · rw [floorSqrt_natCast hn, hend]
    · rwa [hend] at hstop
    · intro k
      have habove := lt_iterate_newtonStep_succ_sq (by omega) (lt_succ_self_sq n) k
      exact pos_of_lt_succ_sq (by omega) habove
  · intro n n' hn h
    exact floorSqrt_mono hn h

/-- Eight is one below a square, and the step from its root goes up. -/
theorem floorSqrt_ends_descent_eight :
    floorSqrt 8 = 2 ∧ floorSqrt 9 = 3 ∧ (2 : Int) * 2 ≤ 8 ∧ (8 : Int) < (2 + 1) * (2 + 1) ∧
      (∃ steps, 2 = (newtonStep 8)^[steps] 8) ∧ newtonStep 8 2 = 3 ∧ (2 : Int) ≤ 3 := by
  have height : floorSqrt 8 = 2 := by cbv
  have hnine : floorSqrt 9 = 3 := by cbv
  obtain ⟨hroot, hdescent, hmono⟩ := floorSqrt_ends_descent
  obtain ⟨-, hlow, hhigh⟩ := hroot 8 (by decide)
  obtain ⟨steps, hend, -⟩ := hdescent 8 (by decide)
  have hle := hmono 8 9 (by decide) (by decide)
  rw [height] at hlow hhigh hle
  rw [hnine] at hle
  have hcast : floorSqrt ((8 : Nat) : Int) = 2 := height
  rw [hcast] at hend
  exact ⟨height, hnine, hlow, hhigh, ⟨steps, by exact_mod_cast hend⟩, by decide, hle⟩

end PredictionMarket
