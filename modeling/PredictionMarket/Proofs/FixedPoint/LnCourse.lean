import PredictionMarket.Proofs.FixedPoint.LnError

/-!
# The course of a logarithm

From its first step to its last a logarithm of a positive integer of 128 bits goes through:
the reduction ends, the roots end, the sum of the series fits, and the answer has the sign
that it should have (`ln_reduction_ends`).

The sign is what is left to prove here.  Two units above one or below it the logarithm is
larger than its error.  One unit off one it is as large as its last place, which the error
could hide, so there it is computed (`ln_pos`, `ln_neg`).
-/

namespace PredictionMarket.FixedPoint

/-! ## The sign of a logarithm -/

/-- Two units above one and further up the logarithm is positive. -/
theorem ln_pos_of_two_above {x l : Int} (h2 : one + 2 ≤ x) (h : x ≤ Width.u128.greatest)
    (hl : ln x = .ok l) : 0 < l := by
  obtain ⟨n, hn, hnear⟩ := ln_spec (le_trans (by decide) h2) h
  obtain rfl := Except.ok.inj (hl.symm.trans hn)
  have hx : (10 : ℝ) ^ 9 + 2 ≤ x := by
    rw [← cast_one]
    exact_mod_cast h2
  have hpos : (0 : ℝ) < x := lt_of_lt_of_le (by norm_num) hx
  have hlog : 1 - ((x : ℝ) / 10 ^ 9)⁻¹ ≤ Real.log (x / 10 ^ 9) :=
    Real.one_sub_inv_le_log_of_pos (by positivity)
  have hinv : ((x : ℝ) / 10 ^ 9)⁻¹ ≤ 1 - 3 / 2 / 10 ^ 9 := by
    rw [inv_div, div_le_iff₀ hpos]
    linarith
  obtain ⟨hlow, -⟩ := abs_le.mp hnear
  have hreal : ((one : Int) : ℝ) ≤ n := by
    rw [cast_one]
    linarith
  have hone : one ≤ n := by exact_mod_cast hreal
  calc (0 : Int) < one.tdiv one := by decide
    _ ≤ n.tdiv one := Int.tdiv_le_tdiv FixedPoint.one_pos hone

/-- Two units below one and further down the logarithm is negative. -/
theorem ln_neg_of_two_below {x l : Int} (h1 : 1 ≤ x) (h2 : x + 2 ≤ one) (hl : ln x = .ok l) :
    l < 0 := by
  obtain ⟨n, hn, hnear⟩ := ln_spec h1 (le_trans (by omega) (by decide : one ≤ _))
  obtain rfl := Except.ok.inj (hl.symm.trans hn)
  have hx : (x : ℝ) + 2 ≤ 10 ^ 9 := by
    rw [← cast_one]
    exact_mod_cast h2
  have hpos : (0 : ℝ) < x := by exact_mod_cast h1
  have hlog : Real.log ((x : ℝ) / 10 ^ 9) ≤ x / 10 ^ 9 - 1 :=
    Real.log_le_sub_one_of_pos (by positivity)
  have hquot : (x : ℝ) / 10 ^ 9 ≤ 1 - 2 / 10 ^ 9 := by
    rw [div_le_iff₀ (by norm_num)]
    linarith
  obtain ⟨-, hhigh⟩ := abs_le.mp hnear
  have hreal : (n : ℝ) ≤ (-one : Int) := by
    push_cast
    rw [cast_one]
    linarith
  have hone : n ≤ -one := by exact_mod_cast hreal
  calc n.tdiv one ≤ (-one).tdiv one := Int.tdiv_le_tdiv FixedPoint.one_pos hone
    _ < 0 := by decide

/-- The logarithm of a number above one is positive. -/
theorem ln_pos {x l : Int} (h1 : one < x) (h : x ≤ Width.u128.greatest) (hl : ln x = .ok l) :
    0 < l := by
  rcases eq_or_lt_of_le (Int.add_one_le_iff.mpr h1) with rfl | h2
  · have hunit : ln (one + 1) = .ok 1 := by cbv
    obtain rfl := Except.ok.inj (hl.symm.trans hunit)
    decide
  · exact ln_pos_of_two_above (by omega) h hl

/-- The logarithm of a positive number below one is negative. -/
theorem ln_neg {x l : Int} (h1 : 1 ≤ x) (h : x < one) (hl : ln x = .ok l) : l < 0 := by
  rcases eq_or_lt_of_le (Int.le_sub_one_of_lt h) with rfl | h2
  · have hunit : ln (one - 1) = .ok (-1) := by cbv
    obtain rfl := Except.ok.inj (hl.symm.trans hunit)
    decide
  · exact ln_neg_of_two_below h1 (by omega) hl

/-- The sign of a logarithm is the side of one that its argument is on. -/
theorem ln_sign {x l : Int} (h1 : 1 ≤ x) (h : x ≤ Width.u128.greatest) (hl : ln x = .ok l) :
    (0 < l ↔ one < x) ∧ (l < 0 ↔ x < one) := by
  rcases lt_trichotomy x one with hlt | rfl | hgt
  · have hneg := ln_neg h1 hlt hl
    omega
  · have hzero : ln one = .ok 0 := by cbv
    obtain rfl := Except.ok.inj (hl.symm.trans hzero)
    omega
  · have hpos := ln_pos hgt h hl
    omega

/-! ## The whole logarithm -/

/-- The reduction of a positive integer takes courses that do not come to a number below one
unit and do not invert more than twice.  From a positive integer of 128 bits it arrives between
one and two after at most seventy steps, at most four roots lead from there to the ceiling, no
sum of the series overflows, and the logarithm has the sign that is due. -/
theorem ln_reduction_ends :
    (∀ x : Int, 1 ≤ x →
      (∀ (left : Nat) (r : Reduction), Reduction.run left (Reduction.start x) = .ok r ↔
        r.Done ∧ ∃ n ≤ left, ∃ i, Reduction.Course n i (Reduction.start x) r) ∧
      ∀ (n i : Nat) (r : Reduction),
        Reduction.Course n i (Reduction.start x) r → 1 ≤ r.value ∧ i ≤ 2) ∧
    ∀ x : Int, 1 ≤ x → x ≤ Width.u128.greatest →
      ∃ (n i roots : Nat) (r : Reduction) (v l : Int),
        Reduction.Course n i (Reduction.start x) r ∧ n ≤ 70 ∧
        (fineOne ≤ r.value ∧ r.value ≤ 2 * fineOne) ∧
        Reduction.run maxReductions (Reduction.start x) = .ok r ∧
        takeRoots r.value = (v, roots) ∧ roots ≤ 4 ∧ v ≤ seriesCeiling ∧
        (∀ terms ≤ maxTerms, ∃ s, lnSeries (v - fineOne) terms 1 0 (v - fineOne) = .ok s ∧
          Width.i128.Fits s) ∧
        ln x = .ok l ∧ (0 < l ↔ one < x) ∧ (l < 0 ↔ x < one) := by
  constructor
  · intro x h1
    have hstart : 0 < (Reduction.start x).value := mul_pos (by omega) FixedPoint.one_pos
    refine ⟨fun left r => Reduction.run_eq_ok_iff, ?_⟩
    intro n i r hcourse
    exact ⟨hcourse.value_pos hstart, hcourse.inversions_le_two hstart⟩
  · intro x h1 h
    obtain ⟨n, hn, i, r, hcourse, hdone⟩ := Reduction.exists_course_start h1 h
    have hfuel : n ≤ maxReductions := hn.trans (by decide)
    have hrun := hcourse.run_eq_ok hdone hfuel
    obtain ⟨hlow, hhigh, -⟩ := takeRoots_spec hdone.1
    obtain ⟨s, hs, -⟩ := lnSeries_start hlow hhigh
    obtain ⟨l, hl⟩ := ln_ok h1 h
    refine ⟨n, i, (takeRoots r.value).2, r, (takeRoots r.value).1, l, hcourse, hn, hdone, hrun,
      rfl, takeRoots_snd_le_four hdone.1 hdone.2, hhigh, ?_, hl, ln_sign h1 h hl⟩
    intro terms hterms
    rw [← Nat.add_sub_cancel' hterms] at hs
    exact exists_partial_sum hs (by decide)

/-- Four tenths are inverted, divided and inverted again.  The greatest integer of 128 bits
is divided most often. -/
theorem ln_reduction_ends_twofold :
    (∃ r, Reduction.Course 3 2 (Reduction.start 400000000) r ∧ 1 ≤ r.value) ∧
      ∃ n i r, Reduction.Course n i (Reduction.start Width.u128.greatest) r ∧ n ≤ 70 ∧
        (fineOne ≤ r.value ∧ r.value ≤ 2 * fineOne) ∧
        ln Width.u128.greatest = .ok 67999573274 ∧ one < Width.u128.greatest := by
  obtain ⟨hcourses, hends⟩ := ln_reduction_ends
  constructor
  · have hcourse : Reduction.Course 3 2 (Reduction.start 400000000)
        (Reduction.start 400000000).step.step.step :=
      .inversion (by decide) (.division (by decide) (.inversion (by decide) (.here _)))
    obtain ⟨-, hbounds⟩ := hcourses 400000000 (by decide)
    exact ⟨_, hcourse, (hbounds 3 2 _ hcourse).1⟩
  · obtain ⟨n, i, roots, r, v, l, hcourse, hn, hdone, -, -, -, -, -, hl, hpos, -⟩ :=
      hends Width.u128.greatest (by decide) le_rfl
    have hvalue : ln Width.u128.greatest = .ok 67999573274 := by cbv
    obtain rfl := Except.ok.inj (hvalue.symm.trans hl)
    exact ⟨n, i, r, hcourse, hn, hdone, hvalue, hpos.mp (by decide)⟩

end PredictionMarket.FixedPoint
