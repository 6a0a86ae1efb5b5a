import PredictionMarket.FixedPoint.Ln
import PredictionMarket.Proofs.FixedPoint.Rounding

/-!
# The reduction of a logarithm

A reduction inverts numbers below one and divides numbers above two.  An inversion leads away
from where the reduction is to go, so neither the number nor its distance from the goal goes
down with every step.  Still the reduction ends soon, because it hardly ever inverts.

`Course` is the way from one state to another, with its steps and its inversions counted.
What holds of a reduction is proved by induction on it, one case for each kind of step, and
`run_eq_ok_iff` says that a run is a course that ends between one and two.

* `Course.value_pos` is the invariant of all courses, so no inversion divides by zero.
* `Course.inversions_le_one` counts.  Nothing above seven tenths falls below them again, and
  from there an inversion ends the course.  So there is one such inversion at the end, and
  another one only where a course starts further down (`Course.inversions_le_two`).
* `exists_course_start` bounds the length.  Behind the first step only divisions are left, but
  for that last inversion, and sixty-eight of them are enough for every integer of 128 bits.
-/

namespace PredictionMarket.FixedPoint.Reduction

/-! ## One step -/

theorem step_of_lt {r : Reduction} (h : r.value < fineOne) :
    r.step = { r with value := fineOne * fineOne / r.value, sign := -r.sign } := if_pos h

theorem step_of_gt {r : Reduction} (h : 2 * fineOne < r.value) :
    r.step = { r with
      value := r.value * fineOne / fineEuler
      offset := r.offset + r.sign * fineOne } :=
  if_neg (by have := fineOne_pos; omega)

/-- The inverse of a number below one is at least one. -/
theorem le_inverse {v : Int} (h0 : 0 < v) (h : v < fineOne) :
    fineOne ≤ fineOne * fineOne / v := by
  rw [Int.le_ediv_iff_mul_le h0]
  exact Int.mul_le_mul_of_nonneg_left (le_of_lt h) (le_of_lt fineOne_pos)

/-- A number above two, divided by Euler's number, stays above seven tenths. -/
theorem le_quotient {v : Int} (h : 2 * fineOne < v) :
    730000000000000000 ≤ v * fineOne / fineEuler := by
  rw [Int.le_ediv_iff_mul_le (by decide)]
  simp only [fineOne, fineEuler] at h ⊢
  omega

theorem le_step_of_lt {r : Reduction} (h0 : 0 < r.value) (h : r.value < fineOne) :
    fineOne ≤ r.step.value := by
  rw [step_of_lt h]
  exact le_inverse h0 h

theorem le_step_of_gt {r : Reduction} (h : 2 * fineOne < r.value) :
    730000000000000000 ≤ r.step.value := by
  rw [step_of_gt h]
  exact le_quotient h

/-- The inverse of a number from seven tenths up to one lies between one and two. -/
theorem done_step_of_lt {r : Reduction} (hlow : 730000000000000000 ≤ r.value)
    (h : r.value < fineOne) : r.step.Done := by
  have hpos : 0 < r.value := lt_of_lt_of_le (by decide) hlow
  refine ⟨le_step_of_lt hpos h, ?_⟩
  rw [step_of_lt h]
  apply Int.ediv_le_of_le_mul hpos
  simp only [fineOne]
  omega

theorem not_done_of_lt {r : Reduction} (h : r.value < fineOne) : ¬ r.Done :=
  fun hdone => absurd hdone.1 (not_le.mpr h)

theorem not_done_of_gt {r : Reduction} (h : 2 * fineOne < r.value) : ¬ r.Done :=
  fun hdone => absurd hdone.2 (not_le.mpr h)

theorem lt_or_gt_of_not_done {r : Reduction} (h : ¬ r.Done) :
    r.value < fineOne ∨ 2 * fineOne < r.value := by
  unfold Done at h
  omega

/-! ## The course -/

/-- The course of a reduction.  In `Course n i r r'` there are `n` steps from `r` to `r'`, of
which `i` are inversions, and none of them starts between one and two. -/
inductive Course : Nat → Nat → Reduction → Reduction → Prop
  /-- A course may end where it starts. -/
  | here (r : Reduction) : Course 0 0 r r
  /-- The first step inverts. -/
  | inversion {n i : Nat} {r r' : Reduction} :
      r.value < fineOne → Course n i r.step r' → Course (n + 1) (i + 1) r r'
  /-- The first step divides. -/
  | division {n i : Nat} {r r' : Reduction} :
      2 * fineOne < r.value → Course n i r.step r' → Course (n + 1) i r r'

theorem run_succ (left : Nat) (r : Reduction) :
    run (left + 1) r = if r.Done then .ok r else run left r.step := by
  rw [run]

theorem run_of_done {left : Nat} {r : Reduction} (h : r.Done) : run left r = .ok r := by
  cases left <;> rw [run, if_pos h]

/-- A run that succeeds has taken a course to a number between one and two. -/
theorem exists_course_of_run {left : Nat} {r r' : Reduction} (h : run left r = .ok r') :
    r'.Done ∧ ∃ n ≤ left, ∃ i, Course n i r r' := by
  induction left generalizing r with
  | zero =>
    rw [run] at h
    split at h
    · rename_i hdone
      obtain rfl := Except.ok.inj h
      exact ⟨hdone, 0, le_rfl, 0, .here r⟩
    · exact absurd h (by simp)
  | succ left ih =>
    rw [run_succ] at h
    split at h
    · rename_i hdone
      obtain rfl := Except.ok.inj h
      exact ⟨hdone, 0, Nat.zero_le _, 0, .here r⟩
    · rename_i hdone
      obtain ⟨hend, n, hn, i, hcourse⟩ := ih h
      rcases lt_or_gt_of_not_done hdone with hlow | habove
      · exact ⟨hend, n + 1, by omega, i + 1, .inversion hlow hcourse⟩
      · exact ⟨hend, n + 1, by omega, i, .division habove hcourse⟩

/-- A run takes the course that there is, if it may take so many steps. -/
theorem Course.run_eq_ok {n i left : Nat} {r r' : Reduction} (h : Course n i r r')
    (hend : r'.Done) (hn : n ≤ left) : run left r = .ok r' := by
  induction h generalizing left with
  | here r => exact run_of_done hend
  | inversion hlow _ ih =>
    obtain ⟨left, rfl⟩ : ∃ l, left = l + 1 := ⟨left - 1, by omega⟩
    rw [run_succ, if_neg (not_done_of_lt hlow)]
    exact ih hend (by omega)
  | division habove _ ih =>
    obtain ⟨left, rfl⟩ : ∃ l, left = l + 1 := ⟨left - 1, by omega⟩
    rw [run_succ, if_neg (not_done_of_gt habove)]
    exact ih hend (by omega)

/-- A run succeeds where a course of no more steps than it may take ends between one and
two. -/
theorem run_eq_ok_iff {left : Nat} {r r' : Reduction} :
    run left r = .ok r' ↔ r'.Done ∧ ∃ n ≤ left, ∃ i, Course n i r r' := by
  constructor
  · exact exists_course_of_run
  · rintro ⟨hend, n, hn, i, hcourse⟩
    exact hcourse.run_eq_ok hend hn

namespace Course

variable {n i : Nat} {r r' : Reduction}

/-- A positive number stays positive. -/
theorem value_pos (h : Course n i r r') (h0 : 0 < r.value) : 0 < r'.value := by
  induction h with
  | here r => exact h0
  | inversion hlow _ ih => exact ih (lt_of_lt_of_le fineOne_pos (le_step_of_lt h0 hlow))
  | division habove _ ih => exact ih (lt_of_lt_of_le (by decide) (le_step_of_gt habove))

/-- Between one and two there is nothing left to do. -/
theorem inversions_of_done (h : Course n i r r') (hdone : r.Done) : i = 0 := by
  cases h with
  | here => rfl
  | inversion hlow _ => exact absurd hdone (not_done_of_lt hlow)
  | division habove _ => exact absurd hdone (not_done_of_gt habove)

/-- From seven tenths on there is one inversion at most, at the end. -/
theorem inversions_le_one (h : Course n i r r') (hlow : 730000000000000000 ≤ r.value) :
    i ≤ 1 := by
  induction h with
  | here r => exact Nat.zero_le 1
  | inversion hone hrest _ =>
    have hlast := hrest.inversions_of_done (done_step_of_lt hlow hone)
    omega
  | division habove _ ih => exact ih (le_step_of_gt habove)

/-- From anywhere else there is one more inversion, at the beginning. -/
theorem inversions_le_two (h : Course n i r r') (h0 : 0 < r.value) : i ≤ 2 := by
  -- whatever the first step is, it leads above seven tenths
  cases h with
  | here => exact Nat.zero_le 2
  | inversion hlow hrest =>
    have hlast := hrest.inversions_le_one (le_trans (by decide) (le_step_of_lt h0 hlow))
    omega
  | division habove hrest =>
    have hlast := hrest.inversions_le_one (le_step_of_gt habove)
    omega

end Course

/-! ## The length of a course -/

/-- A number that `k` divisions by Euler's number bring down to two takes at most `k + 1`
steps: if the last division leads below one, an inversion ends the course. -/
theorem exists_course {k : Nat} {r : Reduction} (hlow : fineOne ≤ r.value)
    (hhigh : r.value * fineOne ^ k ≤ 2 * fineOne * fineEuler ^ k) :
    ∃ n ≤ k + 1, ∃ i r', Course n i r r' ∧ r'.Done := by
  -- the bound is multiplied out, as the powers of Euler's number are no integers
  induction k generalizing r with
  | zero => exact ⟨0, Nat.zero_le _, 0, r, .here r, hlow, by simpa using hhigh⟩
  | succ k ih =>
    by_cases hdone : r.Done
    · exact ⟨0, Nat.zero_le _, 0, r, .here r, hdone⟩
    have habove : 2 * fineOne < r.value := (lt_or_gt_of_not_done hdone).resolve_left (by omega)
    have hle : r.step.value * fineOne ^ k ≤ 2 * fineOne * fineEuler ^ k := by
      have heuler : 0 < fineEuler := by decide
      have hpow : 0 ≤ fineOne ^ k := pow_nonneg fineOne_pos.le k
      refine le_of_mul_le_mul_right ?_ heuler
      calc r.step.value * fineOne ^ k * fineEuler
          = r.value * fineOne / fineEuler * fineEuler * fineOne ^ k := by
            rw [step_of_gt habove]
            ring
        _ ≤ r.value * fineOne * fineOne ^ k :=
            Int.mul_le_mul_of_nonneg_right (Int.ediv_mul_le _ heuler.ne') hpow
        _ = r.value * fineOne ^ (k + 1) := by ring
        _ ≤ 2 * fineOne * fineEuler ^ (k + 1) := hhigh
        _ = 2 * fineOne * fineEuler ^ k * fineEuler := by ring
    rcases le_or_gt fineOne r.step.value with hone | hone
    · obtain ⟨n, hn, i, r', hcourse, hend⟩ := ih hone hle
      exact ⟨n + 1, by omega, i, r', .division habove hcourse, hend⟩
    · have hend := done_step_of_lt (le_step_of_gt habove) hone
      exact ⟨2, by omega, 1, _, .division habove (.inversion hone (.here _)), hend⟩

/-- No positive integer of 128 bits takes more than seventy steps. -/
theorem exists_course_start {x : Int} (h1 : 1 ≤ x) (h : x ≤ Width.u128.greatest) :
    ∃ n ≤ 70, ∃ i r, Course n i (start x) r ∧ r.Done := by
  have hvalue : (start x).value = x * one := rfl
  have hpos : 0 < (start x).value := mul_pos (by omega) FixedPoint.one_pos
  rcases le_or_gt fineOne (start x).value with hlow | hlow
  · obtain ⟨n, hn, hcourse⟩ := exists_course (k := 68) hlow <| by
      rw [hvalue]
      calc x * one * fineOne ^ 68 ≤ Width.u128.greatest * one * fineOne ^ 68 := by
            gcongr
            decide
        _ ≤ 2 * fineOne * fineEuler ^ 68 := by decide
    exact ⟨n, by omega, hcourse⟩
  · have hle : (start x).step.value ≤ one * fineOne := by
      rw [step_of_lt hlow]
      apply Int.ediv_le_of_le_mul hpos
      rw [hvalue]
      simp only [one, fineOne]
      omega
    obtain ⟨n, hn, i, r, hcourse, hend⟩ := exists_course (k := 21) (le_step_of_lt hpos hlow) <| by
      calc (start x).step.value * fineOne ^ 21 ≤ one * fineOne * fineOne ^ 21 := by
            gcongr
            decide
        _ ≤ 2 * fineOne * fineEuler ^ 21 := by decide
    exact ⟨n + 1, by omega, i + 1, r, .inversion hlow hcourse, hend⟩

end PredictionMarket.FixedPoint.Reduction
