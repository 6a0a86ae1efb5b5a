import PredictionMarket.Proofs.FixedPoint.LnReduction
import PredictionMarket.Proofs.FixedPoint.LnSeries

/-!
# The error of the logarithm

`ln_spec` is the main statement: on the positive integers of 128 bits `ln`
succeeds, and what it rounds to nine places is at most two thousand of the
eighteen-place units off the logarithm of the reals.

There are three groups.

* The reduction.  `Reduction.target` is the logarithm that a state stands for.
  An inversion moves it by at most one unit and a division by at most two, and
  `Reduction.Course.abs_target_sub_le` is the induction over a course.
* The roots.  `fineLog_root` is one root and `takeRoots_spec` all of them: at
  most four, which lose at most thirty units together.
* The assembly, with the bounds on the value that the market needs.  `fineLn` is the
  logarithm before its last nine places are dropped.
-/

namespace PredictionMarket.FixedPoint

/-! ## The reduction -/

/-- Euler's number with eighteen places is as good as exact. -/
theorem abs_fineLog_fineEuler_sub_le : |fineLog fineEuler - 10 ^ 18| ≤ 1 / 2 := by
  obtain ⟨hlow, hhigh⟩ := abs_le.mp Real.exp_one_near_20
  have hcast : ((fineEuler : Int) : ℝ) / 10 ^ 18 = 2718281828459045235 / 10 ^ 18 := by
    norm_num [fineEuler]
  have hexp : (0 : ℝ) < Real.exp 1 := Real.exp_pos 1
  set a : ℝ := 2718281828459045235 / 10 ^ 18 with ha
  have ha0 : 0 < a := by norm_num [ha]
  have hsplit : Real.log a = 1 + Real.log (a / Real.exp 1) := by
    rw [Real.log_div ha0.ne' hexp.ne', Real.log_exp]
    ring
  have hup : Real.log (a / Real.exp 1) ≤ 0 := by
    have hle : a / Real.exp 1 ≤ 1 := by
      rw [div_le_one hexp, ha]
      norm_num at hlow ⊢
      linarith
    exact Real.log_nonpos (by positivity) hle
  have hdown : -(1 / 2 / 10 ^ 18) ≤ Real.log (a / Real.exp 1) := by
    have hinv := Real.one_sub_inv_le_log_of_pos (x := a / Real.exp 1) (by positivity)
    have hquot : Real.exp 1 / a ≤ 1 + 1 / 2 / 10 ^ 18 := by
      rw [div_le_iff₀ ha0, ha]
      norm_num at hhigh ⊢
      linarith
    rw [inv_div] at hinv
    linarith
  rw [fineLog, hcast, hsplit, abs_le]
  constructor <;> linarith

namespace Reduction

/-- The logarithm that a reduction stands for, with eighteen places. -/
noncomputable def target (r : Reduction) : ℝ := r.offset + r.sign * fineLog r.value

/-- The sign is one or minus one. -/
def Signed (r : Reduction) : Prop := |r.sign| = 1

theorem abs_cast_sign {r : Reduction} (h : r.Signed) : |(r.sign : ℝ)| = 1 := by
  exact_mod_cast h

theorem target_start (x : Int) : (start x).target = 10 ^ 18 * Real.log (x / 10 ^ 9) := by
  have harg : ((x * one : Int) : ℝ) / 10 ^ 18 = x / 10 ^ 9 := by
    push_cast
    rw [cast_one]
    ring
  rw [target, start, fineLog, harg]
  push_cast
  ring

theorem signed_step {r : Reduction} (h : r.Signed) : r.step.Signed := by
  rw [Signed] at h ⊢
  rw [step]
  split
  · simpa using h
  · exact h

/-- An inversion moves the target by at most one unit. -/
theorem abs_fineLog_inverse_le {v : Int} (h0 : 0 < v) (h : v < fineOne) :
    |fineLog (fineOne * fineOne / v : Int) + fineLog v| ≤ 1 := by
  have hv : (0 : ℝ) < v := by exact_mod_cast h0
  have hdown := ediv_le (fineOne * fineOne) h0
  have hup := lt_ediv (fineOne * fineOne) h0
  have hge : (10 : ℝ) ^ 18 ≤ (fineOne * fineOne / v : Int) := by
    rw [← cast_fineOne]
    exact_mod_cast le_inverse h0 h
  set w : Int := fineOne * fineOne / v with hw
  have hexact : fineLog (10 ^ 18 * 10 ^ 18 / v) = -fineLog v := by
    rw [fineLog_div (by norm_num) hv, fineLog_fineOne]
    ring
  rw [Int.cast_mul, cast_fineOne] at hdown hup
  have hwpos : (0 : ℝ) < w := lt_of_lt_of_le (by norm_num) hge
  have hlow := fineLog_mono hwpos hdown
  have hhigh := fineLog_le_of_floor hwpos (by positivity) hup.le
  have hone : (10 : ℝ) ^ 18 / w ≤ 1 := by
    rw [div_le_one hwpos]
    exact hge
  rw [hexact] at hlow hhigh
  rw [abs_le]
  constructor <;> linarith

/-- A division by Euler's number moves the target by at most two units. -/
theorem abs_fineLog_quotient_le {v : Int} (h : 2 * fineOne < v) :
    |10 ^ 18 + fineLog (v * fineOne / fineEuler : Int) - fineLog v| ≤ 2 := by
  have heuler : (0 : Int) < fineEuler := by decide
  have hv : (0 : ℝ) < v := by
    have : 0 < v := by have := fineOne_pos; omega
    exact_mod_cast this
  have he : (0 : ℝ) < fineEuler := by exact_mod_cast heuler
  have hdown := ediv_le (v * fineOne) heuler
  have hup := lt_ediv (v * fineOne) heuler
  have hge : (730000000000000000 : ℝ) ≤ (v * fineOne / fineEuler : Int) := by
    exact_mod_cast le_quotient h
  set w : Int := v * fineOne / fineEuler with hw
  rw [Int.cast_mul, cast_fineOne] at hdown hup
  have hexact := fineLog_div hv he
  have hwpos : (0 : ℝ) < w := lt_of_lt_of_le (by norm_num) hge
  have hlow := fineLog_mono hwpos hdown
  have hhigh := fineLog_le_of_floor hwpos (by positivity) hup.le
  have hslope : (10 : ℝ) ^ 18 / w ≤ 3 / 2 := by
    rw [div_le_iff₀ hwpos]
    linarith
  rw [hexact] at hlow hhigh
  obtain ⟨heulerlow, heulerhigh⟩ := abs_le.mp abs_fineLog_fineEuler_sub_le
  rw [abs_le]
  constructor <;> linarith

/-- An inversion moves the target by at most one unit. -/
theorem abs_target_inversion_le {r : Reduction} (h0 : 0 < r.value) (hsigned : r.Signed)
    (h : r.value < fineOne) : |r.step.target - r.target| ≤ 1 := by
  have hsplit : r.step.target - r.target =
      -((r.sign : ℝ) * (fineLog (fineOne * fineOne / r.value : Int) + fineLog r.value)) := by
    rw [step_of_lt h, target, target]
    push_cast
    ring
  rw [hsplit, abs_neg, abs_mul, abs_cast_sign hsigned, one_mul]
  exact abs_fineLog_inverse_le h0 h

/-- A division moves the target by at most two units. -/
theorem abs_target_division_le {r : Reduction} (hsigned : r.Signed) (h : 2 * fineOne < r.value) :
    |r.step.target - r.target| ≤ 2 := by
  have hsplit : r.step.target - r.target = (r.sign : ℝ) *
      (10 ^ 18 + fineLog (r.value * fineOne / fineEuler : Int) - fineLog r.value) := by
    rw [step_of_gt h, target, target, ← cast_fineOne]
    push_cast
    ring
  rw [hsplit, abs_mul, abs_cast_sign hsigned, one_mul]
  exact abs_fineLog_quotient_le h

namespace Course

variable {n i : Nat} {r r' : Reduction}

theorem signed (h : Course n i r r') (hsigned : r.Signed) : r'.Signed := by
  induction h with
  | here r => exact hsigned
  | inversion _ _ ih => exact ih (signed_step hsigned)
  | division _ _ ih => exact ih (signed_step hsigned)

/-- A course moves the target by at most two units for each of its steps. -/
theorem abs_target_sub_le (h : Course n i r r') (h0 : 0 < r.value) (hsigned : r.Signed) :
    |r'.target - r.target| ≤ 2 * n := by
  induction h with
  | here r => simp
  | @inversion n i r r' hlow hrest ih =>
    have hstep := abs_target_inversion_le h0 hsigned hlow
    have hpos := (Course.inversion hlow (.here _)).value_pos h0
    refine (abs_sub_le _ r.step.target _).trans ?_
    push_cast
    linarith [ih hpos (signed_step hsigned)]
  | @division n i r r' habove hrest ih =>
    have hstep := abs_target_division_le hsigned habove
    have hpos := (Course.division habove (.here _)).value_pos h0
    refine (abs_sub_le _ r.step.target _).trans ?_
    push_cast
    linarith [ih hpos (signed_step hsigned)]

end Course

end Reduction

/-! ## The roots -/

/-- A root of a number from one on is at least one. -/
theorem le_floorSqrt {v : Int} (h : fineOne ≤ v) : fineOne ≤ floorSqrt (v * fineOne) := by
  have hv : 0 ≤ v * fineOne := mul_nonneg (le_trans (le_of_lt fineOne_pos) h) (le_of_lt fineOne_pos)
  have hlt := lt_succ_floorSqrt_sq hv
  have hnonneg := floorSqrt_nonneg hv
  have hmul : fineOne * fineOne ≤ v * fineOne :=
    Int.mul_le_mul_of_nonneg_right h (le_of_lt fineOne_pos)
  by_contra hle
  have hle' : floorSqrt (v * fineOne) + 1 ≤ fineOne := by omega
  have := Int.mul_le_mul hle' hle' (by omega) (le_of_lt fineOne_pos)
  omega

/-- A root is at most the root of a greater square. -/
theorem floorSqrt_le_of_le_sq {v b : Int} (h : fineOne ≤ v) (hb : 0 ≤ b)
    (hsq : v * fineOne ≤ b * b) : floorSqrt (v * fineOne) ≤ b := by
  have hv : 0 ≤ v * fineOne := mul_nonneg (le_trans (le_of_lt fineOne_pos) h) (le_of_lt fineOne_pos)
  have hle := floorSqrt_sq_le hv
  nlinarith [floorSqrt_nonneg hv]

/-- A root halves the logarithm, and loses at most one unit of it. -/
theorem fineLog_root {v : Int} (h : fineOne ≤ v) :
    2 * fineLog (floorSqrt (v * fineOne)) ≤ fineLog v ∧
      fineLog v ≤ 2 * fineLog (floorSqrt (v * fineOne)) + 2 := by
  have hvr : (10 : ℝ) ^ 18 ≤ v := by
    rw [← cast_fineOne]
    exact_mod_cast h
  have hv : 0 ≤ v * fineOne := mul_nonneg (le_trans (le_of_lt fineOne_pos) h) (le_of_lt fineOne_pos)
  have hroot : (10 : ℝ) ^ 18 ≤ floorSqrt (v * fineOne) := by
    rw [← cast_fineOne]
    exact_mod_cast le_floorSqrt h
  have hle : (floorSqrt (v * fineOne) : ℝ) * floorSqrt (v * fineOne) ≤ v * 10 ^ 18 := by
    rw [← cast_fineOne]
    exact_mod_cast floorSqrt_sq_le hv
  have hlt : (v : ℝ) * 10 ^ 18 <
      (floorSqrt (v * fineOne) + 1) * (floorSqrt (v * fineOne) + 1) := by
    rw [← cast_fineOne]
    exact_mod_cast lt_succ_floorSqrt_sq hv
  set w : ℝ := (floorSqrt (v * fineOne) : ℝ) with hw
  have hwpos : 0 < w := lt_of_lt_of_le (by norm_num) hroot
  have hvpos : (0 : ℝ) < v := lt_of_lt_of_le (by norm_num) hvr
  refine ⟨?_, ?_⟩
  · rw [two_mul, ← fineLog_mul hwpos hwpos]
    apply fineLog_mono (by positivity)
    rw [div_le_iff₀ (by norm_num)]
    exact hle
  · have hnext := fineLog_le_of_floor hwpos (t := w + 1) (by positivity) le_rfl
    have hslope : (10 : ℝ) ^ 18 / w ≤ 1 := by
      rw [div_le_one hwpos]
      exact hroot
    have hsq : fineLog v ≤ fineLog (w + 1) + fineLog (w + 1) := by
      rw [← fineLog_mul (by positivity) (by positivity)]
      apply fineLog_mono hvpos
      rw [le_div_iff₀ (by norm_num)]
      exact hlt.le
    linarith

theorem takeRoots_of_le {v : Int} (h : v ≤ seriesCeiling) : takeRoots v = (v, 0) := by
  rw [takeRoots, dif_neg (not_lt.mpr h)]

theorem takeRoots_of_lt {v : Int} (h : seriesCeiling < v) :
    takeRoots v = ((takeRoots (floorSqrt (v * fineOne))).1,
      (takeRoots (floorSqrt (v * fineOne))).2 + 1) := by
  rw [takeRoots, dif_pos h]

/-- One more root brings numbers up to `b` down to those that take `count`
roots. -/
theorem takeRoots_snd_le {b b' : Int} {count : Nat} (hb : 0 ≤ b) (hsq : b' * fineOne ≤ b * b)
    (hcount : ∀ w, fineOne ≤ w → w ≤ b → (takeRoots w).2 ≤ count) {v : Int}
    (hlow : fineOne ≤ v) (hhigh : v ≤ b') : (takeRoots v).2 ≤ count + 1 := by
  rcases le_or_gt v seriesCeiling with hle | hlt
  · rw [takeRoots_of_le hle]
    exact Nat.zero_le _
  · rw [takeRoots_of_lt hlt]
    have hmul : v * fineOne ≤ b * b :=
      (Int.mul_le_mul_of_nonneg_right hhigh (le_of_lt fineOne_pos)).trans hsq
    have := hcount _ (le_floorSqrt hlow) (floorSqrt_le_of_le_sq hlow hb hmul)
    simpa using this

/-- Four roots bring a number up to two down to the ceiling. -/
theorem takeRoots_snd_le_four {v : Int} (hlow : fineOne ≤ v) (hhigh : v ≤ 2 * fineOne) :
    (takeRoots v).2 ≤ 4 := by
  have h0 : ∀ w, fineOne ≤ w → w ≤ seriesCeiling → (takeRoots w).2 ≤ 0 := fun w _ hw => by
    rw [takeRoots_of_le hw]
  have h1 : ∀ w, fineOne ≤ w → w ≤ 1100000000000000000 → (takeRoots w).2 ≤ 1 := fun w =>
    takeRoots_snd_le (by decide) (by decide) h0
  have h2 : ∀ w, fineOne ≤ w → w ≤ 1200000000000000000 → (takeRoots w).2 ≤ 2 := fun w =>
    takeRoots_snd_le (by decide) (by decide) h1
  have h3 : ∀ w, fineOne ≤ w → w ≤ 1415000000000000000 → (takeRoots w).2 ≤ 3 := fun w =>
    takeRoots_snd_le (by decide) (by decide) h2
  exact takeRoots_snd_le (by decide) (by decide) h3 hlow hhigh

/-- The roots bring a number down to the ceiling, and each loses at most one unit
of its logarithm, doubled by every root before it. -/
theorem takeRoots_spec {v : Int} (h : fineOne ≤ v) :
    fineOne ≤ (takeRoots v).1 ∧ (takeRoots v).1 ≤ seriesCeiling ∧
      2 ^ (takeRoots v).2 * fineLog (takeRoots v).1 ≤ fineLog v ∧
      fineLog v ≤ 2 ^ (takeRoots v).2 * fineLog (takeRoots v).1 +
        (2 ^ ((takeRoots v).2 + 1) - 2) := by
  induction v using takeRoots.induct with
  | case1 v hlt _ _ _ ih =>
    obtain ⟨hlow, hhigh, hbelow, habove⟩ := ih (le_floorSqrt h)
    obtain ⟨hrootbelow, hrootabove⟩ := fineLog_root h
    rw [takeRoots_of_lt hlt]
    set w := takeRoots (floorSqrt (v * fineOne)) with hw
    refine ⟨hlow, hhigh, ?_, ?_⟩
    · calc (2 : ℝ) ^ (w.2 + 1) * fineLog w.1 = 2 * (2 ^ w.2 * fineLog w.1) := by ring
        _ ≤ 2 * fineLog (floorSqrt (v * fineOne)) := by linarith
        _ ≤ fineLog v := hrootbelow
    · calc fineLog v ≤ 2 * fineLog (floorSqrt (v * fineOne)) + 2 := hrootabove
        _ ≤ 2 * (2 ^ w.2 * fineLog w.1 + (2 ^ (w.2 + 1) - 2)) + 2 := by linarith
        _ = 2 ^ (w.2 + 1) * fineLog w.1 + (2 ^ (w.2 + 1 + 1) - 2) := by ring
  | case2 v hle =>
    rw [takeRoots_of_le (not_lt.mp hle)]
    refine ⟨h, not_lt.mp hle, ?_, ?_⟩ <;> norm_num

/-! ## The logarithm -/

/-- The logarithm with all its eighteen places. -/
def fineLn (x : Int) : Except MarketError Int := do
  let r ← Reduction.run maxReductions (Reduction.start x)
  let (v, roots) := takeRoots r.value
  let series ← lnSeries (v - fineOne) maxTerms 1 0 (v - fineOne)
  return r.offset + r.sign * (series <<< roots)

theorem fineLn_eq (x : Int) :
    fineLn x = Reduction.run maxReductions (Reduction.start x) >>= fun r =>
      lnSeries ((takeRoots r.value).1 - fineOne) maxTerms 1 0 ((takeRoots r.value).1 - fineOne) >>=
        fun series => .ok (r.offset + r.sign * (series <<< (takeRoots r.value).2)) := rfl

/-- The last nine of the eighteen places are dropped. -/
theorem ln_eq_fineLn {x : Int} (h0 : 0 < x) :
    ln x = fineLn x >>= fun n => .ok (n.tdiv one) := by
  rcases eq_or_ne x one with rfl | hne
  · have hzero : fineLn one = .ok 0 := by cbv
    rw [hzero]
    rfl
  · rw [ln, if_neg (by omega), if_neg hne, fineLn_eq, bind_assoc]
    refine bind_congr fun r => ?_
    rw [bind_assoc]
    rfl

/-- On the positive integers of 128 bits the logarithm with all its places is at most two
thousand of its units off. -/
theorem fineLn_spec {x : Int} (h1 : 1 ≤ x) (h : x ≤ Width.u128.greatest) :
    ∃ n : Int, fineLn x = .ok n ∧ |(n : ℝ) - 10 ^ 18 * Real.log (x / 10 ^ 9)| ≤ 2000 := by
  obtain ⟨steps, hsteps, i, r, hcourse, hdone⟩ := Reduction.exists_course_start h1 h
  have hfuel : steps ≤ maxReductions := hsteps.trans (by decide)
  have hr := hcourse.run_eq_ok hdone hfuel
  have hstart : 0 < (Reduction.start x).value := mul_pos (by omega) FixedPoint.one_pos
  have hsigned := hcourse.signed rfl
  have htarget := hcourse.abs_target_sub_le hstart rfl
  have hreal : (steps : ℝ) ≤ 70 := by exact_mod_cast hsteps
  rw [Reduction.target_start] at htarget
  have hcount := takeRoots_snd_le_four hdone.1 hdone.2
  obtain ⟨hlow, hhigh, hbelow, habove⟩ := takeRoots_spec hdone.1
  obtain ⟨s, hs, hseries⟩ := lnSeries_start hlow hhigh
  set w := takeRoots r.value with hw
  have hpow : (2 : ℝ) ^ w.2 ≤ 2 ^ 4 := pow_le_pow_right₀ (by norm_num) hcount
  have hpow0 : (0 : ℝ) < 2 ^ w.2 := by positivity
  refine ⟨r.offset + r.sign * (s <<< w.2), ?_, ?_⟩
  · rw [fineLn_eq, hr, ok_bind, ← hw, hs, ok_bind]
  · have hsign := Reduction.abs_cast_sign hsigned
    have hsum : |2 ^ w.2 * (s : ℝ) - fineLog r.value| ≤ 1470 := by
      obtain ⟨hslow, hshigh⟩ := abs_le.mp hseries
      rw [pow_succ] at habove
      rw [abs_le]
      constructor <;> nlinarith
    have hnear : |((r.offset + r.sign * (s <<< w.2) : Int) : ℝ) - r.target| ≤ 1470 := by
      have hsplit : ((r.offset + r.sign * (s <<< w.2) : Int) : ℝ) - r.target =
          r.sign * (2 ^ w.2 * (s : ℝ) - fineLog r.value) := by
        rw [Reduction.target, Int.shiftLeft_eq]
        push_cast
        ring
      rw [hsplit, abs_mul, hsign, one_mul]
      exact hsum
    refine (abs_sub_le _ r.target _).trans ?_
    linarith

/-- The logarithm succeeds on the positive integers of 128 bits, and is at most
two thousand of the finer units off before it is rounded. -/
theorem ln_spec {x : Int} (h1 : 1 ≤ x) (h : x ≤ Width.u128.greatest) :
    ∃ n : Int, ln x = .ok (n.tdiv one) ∧
      |(n : ℝ) - 10 ^ 18 * Real.log (x / 10 ^ 9)| ≤ 2000 := by
  obtain ⟨n, hn, hnear⟩ := fineLn_spec h1 h
  exact ⟨n, by rw [ln_eq_fineLn (by omega), hn, ok_bind], hnear⟩

/-- From one on the logarithm is rounded down, up to a trace. -/
theorem ln_upper {x l : Int} (h1 : one ≤ x) (h : x ≤ Width.u128.greatest) (hl : ln x = .ok l) :
    (l : ℝ) ≤ 10 ^ 9 * Real.log (x / 10 ^ 9) + 2 / 10 ^ 6 := by
  obtain ⟨n, hn, hnear⟩ := ln_spec (le_trans (by decide) h1) h
  obtain rfl : l = n.tdiv one := by simpa [hl] using hn
  have hlog : 0 ≤ Real.log ((x : ℝ) / 10 ^ 9) := by
    apply Real.log_nonneg
    rw [le_div_iff₀ (by norm_num), one_mul, ← cast_one]
    exact_mod_cast h1
  obtain ⟨-, hhigh⟩ := abs_le.mp hnear
  rcases le_total 0 n with h0 | h0
  · have hround := tdiv_le h0 FixedPoint.one_pos
    rw [cast_one, le_div_iff₀ (by norm_num)] at hround
    linarith
  · have hle : n.tdiv one ≤ 0 := by
      rw [← neg_neg n, Int.neg_tdiv]
      have := Int.tdiv_nonneg (a := -n) (b := one) (by omega) (le_of_lt FixedPoint.one_pos)
      omega
    have : ((n.tdiv one : Int) : ℝ) ≤ 0 := by exact_mod_cast hle
    linarith

/-- The logarithm loses less than a unit to the rounding, and a trace. -/
theorem ln_lower {x l : Int} (h1 : 1 ≤ x) (h : x ≤ Width.u128.greatest) (hl : ln x = .ok l) :
    10 ^ 9 * Real.log (x / 10 ^ 9) < l + 1 + 2 / 10 ^ 6 := by
  obtain ⟨n, hn, hnear⟩ := ln_spec h1 h
  obtain rfl : l = n.tdiv one := by simpa [hl] using hn
  have hround := abs_tdiv_sub_lt n FixedPoint.one_pos
  rw [cast_one] at hround
  obtain ⟨hlow, -⟩ := abs_lt.mp hround
  obtain ⟨hbelow, habove⟩ := abs_le.mp hnear
  have hquot : (n : ℝ) / 10 ^ 9 < (n.tdiv one : Int) + 1 := by linarith
  rw [div_lt_iff₀ (by norm_num)] at hquot
  linarith

theorem ln_ok {x : Int} (h1 : 1 ≤ x) (h : x ≤ Width.u128.greatest) : ∃ l, ln x = .ok l := by
  obtain ⟨n, hn, -⟩ := ln_spec h1 h
  exact ⟨_, hn⟩

/-- The logarithm of a number from two on is at least that of two. -/
theorem ln_two_le {x l : Int} (h2 : 2 * one ≤ x) (h : x ≤ Width.u128.greatest)
    (hl : ln x = .ok l) : 693147180 ≤ l := by
  have hlower := ln_lower (le_trans (by decide) h2) h hl
  have hx : (2 : ℝ) ≤ x / 10 ^ 9 := by
    rw [le_div_iff₀ (by norm_num), ← cast_one]
    exact_mod_cast h2
  have hlog := Real.log_le_log (by norm_num) hx
  have htwo := Real.log_two_gt_d9
  norm_num at htwo
  have hreal : (693147179 : ℝ) < l := by linarith
  have : (693147179 : Int) < l := by exact_mod_cast hreal
  omega

/-- The logarithm of an integer of 128 bits is below seventy. -/
theorem ln_le_seventy {x l : Int} (h1 : one ≤ x) (h : x ≤ Width.u128.greatest)
    (hl : ln x = .ok l) : l ≤ 70000000000 := by
  have hupper := ln_upper h1 h hl
  have hx0 : (0 : ℝ) < x / 10 ^ 9 := by
    have : (0 : ℝ) < x := by exact_mod_cast lt_of_lt_of_le FixedPoint.one_pos h1
    positivity
  have hx : (x : ℝ) / 10 ^ 9 ≤ 2 ^ 99 := by
    have : (x : ℝ) ≤ 340282366920938463463374607431768211455 := by exact_mod_cast h
    rw [div_le_iff₀ (by norm_num)]
    linarith
  have hlog := Real.log_le_log hx0 hx
  rw [Real.log_pow] at hlog
  have htwo := Real.log_two_lt_d9
  norm_num at htwo hlog
  have hreal : (l : ℝ) ≤ 70000000000 := by linarith
  exact_mod_cast hreal

end PredictionMarket.FixedPoint
