import PredictionMarket.Proofs.FixedPoint.ExpError

/-!
# The order of exponentials

The rounded exponential grows with its argument, although arguments next to each other may
be halved differently often and leave the series at different terms.  Three reasons carry
this, each in its own range.

* From zero to one half nothing is halved.  `expTail` is what the series adds to its first
  term.  It grows with the argument (`expTail_mono`), so the sum grows by at least as much as
  the argument does (`expSeries_add_le`), which is a unit of the ninth place.
* From one half to the limit one more unit in the argument raises the exponential by more
  than all roundings can take (`expValue_lt_of_half_lt`).
* Below zero the exponential shrinks to two units, and an absolute error for all arguments is
  too much.  The last squaring makes most of it, and what the others leave shrinks with the
  square root of the exponential (`NearSquare` and `exp_decay_sqrt`).

`exp_keeps_order` puts the ranges together.
-/

namespace PredictionMarket.FixedPoint

/-! ## From zero to one half -/

/-- What the series adds to a sum, from the term `term` at place `n` on. -/
def expTail (r : Int) (left n : Nat) (term : Int) : Int :=
  match left with
  | 0 => 0
  | left + 1 => expNext r n term + expTail r left (n + 1) (expNext r n term)

/-- No term follows one that vanishes. -/
theorem expTail_zero (r : Int) (left n : Nat) : expTail r left n 0 = 0 := by
  have hnext (n : Nat) : expNext r n 0 = 0 := by simp [expNext]
  induction left generalizing n with
  | zero => rfl
  | succ left ih => rw [expTail, hnext, ih, add_zero]

/-- Where the series stops early, it has added all terms that there are. -/
theorem eq_add_expTail {r : Int} {left n : Nat} {sum term s : Int}
    (h : expSeries r left n sum term = .ok s) : s = sum + expTail r left n term := by
  induction left generalizing n sum term with
  | zero =>
    obtain rfl : sum = s := by simpa [expSeries] using h
    rw [expTail, add_zero]
  | succ left ih =>
    rw [expSeries_succ] at h
    split at h
    · rename_i hzero
      obtain rfl : sum = s := by simpa using h
      rw [expTail, hzero, expTail_zero, add_zero, add_zero]
    · obtain ⟨total, hadd, h⟩ := bind_eq_ok_iff.mp h
      obtain ⟨-, rfl⟩ := Width.add_eq_ok_iff.mp hadd
      rw [ih h, expTail, add_assoc]

theorem expNext_mono {r r' : Int} (hr : 0 ≤ r) (hle : r ≤ r') {n : Nat} {term term' : Int}
    (hterm : 0 ≤ term) (hterms : term ≤ term') :
    0 ≤ expNext r n term ∧ expNext r n term ≤ expNext r' n term' := by
  have hden : (0 : Int) < fineOne * (n + 1) := by
    have := fineOne_pos
    positivity
  rw [expNext_eq, expNext_eq]
  refine ⟨Int.tdiv_nonneg (mul_nonneg hterm hr) hden.le, ?_⟩
  exact Int.tdiv_le_tdiv hden (mul_le_mul hterms hle hr (hterm.trans hterms))

theorem expTail_mono {r r' : Int} (hr : 0 ≤ r) (hle : r ≤ r') (left n : Nat) {term term' : Int}
    (hterm : 0 ≤ term) (hterms : term ≤ term') :
    expTail r left n term ≤ expTail r' left n term' := by
  induction left generalizing n term term' with
  | zero => exact le_rfl
  | succ left ih =>
    obtain ⟨hnonneg, hnext⟩ := expNext_mono hr hle (n := n) hterm hterms
    exact add_le_add hnext (ih (n + 1) hnonneg hnext)

/-- The sum grows by at least as much as the argument does. -/
theorem expSeries_add_le {r r' s s' : Int} (hr : 0 ≤ r) (hle : r ≤ r')
    (hs : expSeries r maxTerms 0 fineOne fineOne = .ok s)
    (hs' : expSeries r' maxTerms 0 fineOne fineOne = .ok s') : s + (r' - r) ≤ s' := by
  -- the argument is itself the first term that is added
  have hfirst (r : Int) : expTail r maxTerms 0 fineOne = r + expTail r 19 1 r := by
    have hnext : expNext r 0 fineOne = r := by
      rw [expNext_eq]
      simp [Int.mul_tdiv_cancel_left _ (ne_of_gt fineOne_pos)]
    rw [show maxTerms = 19 + 1 from rfl, expTail, hnext]
  have htail := expTail_mono hr hle 19 1 hr hle
  rw [eq_add_expTail hs, eq_add_expTail hs', hfirst, hfirst]
  omega

/-- An argument up to one half is not halved. -/
theorem exp_of_le_half {x : Int} (h0 : 0 ≤ x) (h : x ≤ 500000000) :
    ∃ s, expSeries (x * one) maxTerms 0 fineOne fineOne = .ok s ∧ 0 ≤ s ∧
      expValue x = s.tdiv one := by
  have hlimit : expLimit = 20000000000 := rfl
  have hlow : -expLimit ≤ x := by omega
  have hhigh : x ≤ expLimit := by omega
  have hhalvings : halvings x.natAbs = 0 := by
    rw [halvings, if_pos (by omega)]
  have hreduced : reducedArgument x = x * one := by
    rw [reducedArgument, hhalvings]
    simp
  obtain ⟨-, -, hhalf⟩ := reduced_argument hlow hhigh
  obtain ⟨s, hs, hnear, -⟩ := expSeries_start hhalf
  rw [hreduced] at hs hnear
  have hs0 : 0 ≤ s := by
    have hx0 : (0 : ℝ) ≤ (x * one : Int) := by exact_mod_cast mul_nonneg h0 FixedPoint.one_pos.le
    have hexp : (1 : ℝ) ≤ Real.exp ((x * one : Int) / 10 ^ 18) := Real.one_le_exp (by positivity)
    obtain ⟨hbelow, -⟩ := abs_le.mp hnear
    have hreal : (0 : ℝ) ≤ s := by linarith
    exact_mod_cast hreal
  refine ⟨s, hs, hs0, expValue_eq_of_ok ?_⟩
  rw [exp_of_within hlow hhigh, hreduced, hs, ok_bind, hhalvings, squareTimes, ok_bind,
    max_eq_right (Int.tdiv_nonneg hs0 FixedPoint.one_pos.le)]

theorem expValue_lt_of_le_half {x y : Int} (h0 : 0 ≤ x) (hxy : x < y) (hy : y ≤ 500000000) :
    expValue x < expValue y := by
  obtain ⟨s, hs, hs0, hx⟩ := exp_of_le_half h0 (by omega)
  obtain ⟨s', hs', hs0', hy⟩ := exp_of_le_half (h0.trans hxy.le) hy
  have hgrowth := expSeries_add_le (mul_nonneg h0 FixedPoint.one_pos.le)
    (Int.mul_le_mul_of_nonneg_right hxy.le FixedPoint.one_pos.le) hs hs'
  rw [hx, hy, Int.tdiv_eq_ediv_of_nonneg hs0, Int.tdiv_eq_ediv_of_nonneg hs0']
  simp only [one] at hgrowth ⊢
  omega

/-! ## From one half to the limit -/

/-- One more unit in the argument raises the exponential by a unit's part of it. -/
theorem exp_mul_le_of_lt {x y : Int} (h : x < y) :
    Real.exp (x / 10 ^ 9) * (1 + 1 / 10 ^ 9) ≤ Real.exp (y / 10 ^ 9) := by
  have hunit : (x : ℝ) + 1 ≤ y := by exact_mod_cast h
  have hsplit : (y : ℝ) / 10 ^ 9 = x / 10 ^ 9 + (y - x) / 10 ^ 9 := by ring
  have hstep : 1 + 1 / 10 ^ 9 ≤ Real.exp (((y : ℝ) - x) / 10 ^ 9) := by
    have hexp := Real.add_one_le_exp (((y : ℝ) - x) / 10 ^ 9)
    have hdiff : (1 : ℝ) / 10 ^ 9 ≤ (y - x) / 10 ^ 9 := by
      gcongr
      linarith
    linarith
  rw [hsplit, Real.exp_add]
  exact mul_le_mul_of_nonneg_left hstep (Real.exp_pos _).le

theorem expValue_lt_of_half_lt {x y : Int} (h0 : 0 ≤ x) (hxy : x < y) (hlow : 500000000 < y)
    (hhigh : y ≤ expLimit) : expValue x < expValue y := by
  have hx := expValue_le h0 (hxy.le.trans hhigh)
  have hy := lt_expValue (h0.trans hxy.le) hhigh
  have hstep := exp_mul_le_of_lt hxy
  have hlarge : (3 : ℝ) / 2 ≤ Real.exp (y / 10 ^ 9) := by
    have hexp := Real.add_one_le_exp ((y : ℝ) / 10 ^ 9)
    have hhalf : (500000000 : ℝ) < y := by exact_mod_cast hlow
    have hquot : (1 : ℝ) / 2 ≤ y / 10 ^ 9 := by
      rw [le_div_iff₀ (by norm_num)]
      linarith
    linarith
  have hreal : (expValue x : ℝ) < expValue y := by nlinarith
  exact_mod_cast hreal

/-! ## Below zero -/

/-- The last of the squarings. -/
theorem squareTimes_succ_last (h : Nat) (s : Int) :
    squareTimes (h + 1) s =
      squareTimes h s >>= fun power => Width.i128.div (power * power) fineOne := by
  induction h generalizing s with
  | zero =>
    rw [squareTimes_succ, squareTimes, ok_bind]
    exact bind_pure _
  | succ h ih =>
    rw [squareTimes_succ, squareTimes_succ h, bind_assoc]
    exact bind_congr fun square => ih square

/-- The number is close to a power that shrinks, the square of `W`.  The error shrinks with
`W`, up to the unit that a rounding may take. -/
def NearSquare (p : Int) (W : ℝ) : Prop :=
  (fineOne : Int) * W ^ 2 - 3000 * W - 1 < p ∧ (p : ℝ) ≤ (fineOne : Int) * W ^ 2 + 3000 * W

theorem nearSquare_iff {p : Int} {W : ℝ} :
    NearSquare p W ↔ 10 ^ 18 * W ^ 2 - 3000 * W - 1 < p ∧ (p : ℝ) ≤ 10 ^ 18 * W ^ 2 + 3000 * W := by
  rw [NearSquare, cast_fineOne]

/-- The square of a number close to a power that shrinks. -/
theorem nearSquare_of_near {q : Int} {W : ℝ} (hW : 1 / 10 ^ 5 ≤ W)
    (hnear : |(q : ℝ) - 10 ^ 18 * W| ≤ 1472) : NearSquare ((q * q).tdiv fineOne) W := by
  have hdown := tdiv_le (mul_self_nonneg q) fineOne_pos
  have hup := lt_tdiv (mul_self_nonneg q) fineOne_pos
  rw [cast_fineOne] at hdown hup
  push_cast at hdown hup
  set d : ℝ := q - 10 ^ 18 * W with hd
  obtain ⟨hlow, hhigh⟩ := abs_le.mp hnear
  have hsq : (q : ℝ) * q / 10 ^ 18 = 10 ^ 18 * W ^ 2 + 2 * W * d + d ^ 2 / 10 ^ 18 := by
    rw [hd]
    ring
  have hrest : 0 ≤ d ^ 2 / 10 ^ 18 := by positivity
  have hsmall : d ^ 2 / 10 ^ 18 ≤ W := by
    have hd2 : d ^ 2 ≤ 1472 ^ 2 := sq_le_sq' hlow hhigh
    rw [div_le_iff₀ (by norm_num)]
    linarith
  rw [hsq] at hdown hup
  rw [nearSquare_iff]
  constructor
  · nlinarith
  · nlinarith

/-- What is close to a power below one fits. -/
theorem NearSquare.fits {p : Int} {W : ℝ} (h : NearSquare p W) (h0 : 0 ≤ W) (h1 : W ≤ 1) :
    Width.i128.Fits p := by
  obtain ⟨hlow, hhigh⟩ := nearSquare_iff.mp h
  apply i128_fits_of_abs_le
  rw [abs_le]
  constructor
  · nlinarith
  · nlinarith

/-- The squarings of a number that is close to an exponential below one.  All but the last
leave an absolute error. -/
theorem squareTimes_nearSquare {h : Nat} {s : Int} {ρ : ℝ} (hfive : h ≤ 5) (hρ : ρ ≤ 0)
    (hlow : 1 / 10 ^ 5 ≤ Real.exp (2 ^ h * ρ)) (hnear : |(s : ℝ) - 10 ^ 18 * Real.exp ρ| ≤ 44) :
    ∃ p, squareTimes (h + 1) s = .ok p ∧ NearSquare p (Real.exp (2 ^ h * ρ)) := by
  have hpow : (2 : ℝ) ^ h ≤ 2 ^ 5 := pow_le_pow_right₀ (by norm_num) hfive
  obtain ⟨q, hq, hqnear⟩ := squareTimes_decay (h := h) hρ (by linarith) hnear
  have hsquare := nearSquare_of_near hlow (hqnear.trans (by linarith))
  have hone : Real.exp (2 ^ h * ρ) ≤ 1 :=
    Real.exp_le_one_iff.mpr (mul_nonpos_of_nonneg_of_nonpos (by positivity) hρ)
  have hfits := hsquare.fits (Real.exp_pos _).le hone
  refine ⟨(q * q).tdiv fineOne, ?_, hsquare⟩
  rw [squareTimes_succ_last, hq, ok_bind,
    Width.div_eq_ok_iff.mpr ⟨ne_of_gt fineOne_pos, hfits, rfl⟩]

/-- The square root of the least exponential that is not flushed. -/
theorem le_exp_half {x : Int} (hlow : -expLimit ≤ x) :
    (9 : ℝ) / 2 / 10 ^ 5 ≤ Real.exp (x / (2 * 10 ^ 9)) := by
  have hx : (-10 : ℝ) ≤ x / (2 * 10 ^ 9) := by
    have hreal : (-20000000000 : ℝ) ≤ x := by exact_mod_cast hlow
    rw [le_div_iff₀ (by norm_num)]
    linarith
  have hten : Real.exp 10 ≤ 22222 := by
    have hpow : Real.exp 10 = Real.exp 1 ^ 10 := by
      rw [← Real.exp_nat_mul]
      norm_num
    rw [hpow]
    calc Real.exp 1 ^ 10 ≤ 2.7182818286 ^ 10 := by
          gcongr
          exact Real.exp_one_lt_d9.le
      _ ≤ 22222 := by norm_num
  calc (9 : ℝ) / 2 / 10 ^ 5 ≤ (Real.exp 10)⁻¹ := by
        rw [le_inv_comm₀ (by norm_num) (Real.exp_pos 10)]
        exact hten.trans (by norm_num)
    _ = Real.exp (-10) := (Real.exp_neg 10).symm
    _ ≤ Real.exp (x / (2 * 10 ^ 9)) := Real.exp_le_exp.mpr hx

theorem exp_half_sq (x : Int) :
    Real.exp ((x : ℝ) / (2 * 10 ^ 9)) ^ 2 = Real.exp (x / 10 ^ 9) := by
  rw [← Real.exp_nat_mul]
  congr 1
  push_cast
  ring

/-- An argument down to minus one half is not squared, and its series is close enough. -/
theorem nearSquare_of_half_le {x s : Int} (hx : |(x : ℝ) / 10 ^ 9| ≤ 1 / 2)
    (hnear : |(s : ℝ) - 10 ^ 18 * Real.exp (x / 10 ^ 9)| ≤ 44) :
    NearSquare s (Real.exp (x / (2 * 10 ^ 9))) := by
  have hlarge : (3 : ℝ) / 4 ≤ Real.exp (x / (2 * 10 ^ 9)) := by
    have hadd := Real.add_one_le_exp ((x : ℝ) / (2 * 10 ^ 9))
    have hquarter : -(1 / 4 : ℝ) ≤ x / (2 * 10 ^ 9) := by
      have := (abs_le.mp hx).1
      linarith
    linarith
  rw [← exp_half_sq] at hnear
  obtain ⟨hbelow, habove⟩ := abs_le.mp hnear
  rw [nearSquare_iff]
  constructor
  · linarith
  · linarith

/-- The exponential of an argument that is not positive, with an error that shrinks with its
square root. -/
theorem exp_decay_sqrt {x : Int} (hlow : -expLimit ≤ x) (h0 : x ≤ 0) :
    ∃ p : Int, expValue x = max 0 (p.tdiv one) ∧
      NearSquare p (Real.exp (x / (2 * 10 ^ 9))) := by
  have hhigh : x ≤ expLimit := h0.trans (by decide)
  obtain ⟨hsix, hscaled, hhalf⟩ := reduced_argument hlow hhigh
  obtain ⟨s, hs, hnear, -⟩ := expSeries_start hhalf
  have hexp := exp_of_within hlow hhigh
  rw [hs, ok_bind] at hexp
  cases hcount : halvings x.natAbs with
  | zero =>
    rw [hcount, pow_zero, one_mul] at hscaled
    rw [hcount, squareTimes, ok_bind] at hexp
    rw [hscaled] at hnear hhalf
    exact ⟨s, expValue_eq_of_ok hexp, nearSquare_of_half_le hhalf hnear⟩
  | succ h =>
    rw [hcount] at hsix hscaled hexp
    have hroot : (2 : ℝ) ^ h * (reducedArgument x / 10 ^ 18) = x / (2 * 10 ^ 9) := by
      rw [pow_succ] at hscaled
      linarith
    have hleast := le_exp_half hlow
    rw [← hroot] at hleast ⊢
    have hfive : h ≤ 5 := by omega
    obtain ⟨p, hp, hsquare⟩ := squareTimes_nearSquare hfive (reduced_argument_nonpos hlow h0)
      (by linarith) hnear
    rw [hp, ok_bind] at hexp
    exact ⟨p, expValue_eq_of_ok hexp, hsquare⟩

theorem expValue_le_of_nonpos {x y : Int} (hlow : -expLimit ≤ x) (hxy : x < y) (hy : y ≤ 0) :
    expValue x ≤ expValue y := by
  obtain ⟨p, hp, hpnear⟩ := exp_decay_sqrt hlow (hxy.le.trans hy)
  obtain ⟨q, hq, hqnear⟩ := exp_decay_sqrt (hlow.trans hxy.le) hy
  obtain ⟨-, hphigh⟩ := nearSquare_iff.mp hpnear
  obtain ⟨hqlow, -⟩ := nearSquare_iff.mp hqnear
  have hstep := exp_mul_le_of_lt hxy
  rw [← exp_half_sq, ← exp_half_sq] at hstep
  have hroots : Real.exp ((x : ℝ) / (2 * 10 ^ 9)) ≤ Real.exp (y / (2 * 10 ^ 9)) := by
    have : (x : ℝ) ≤ y := by exact_mod_cast hxy.le
    gcongr
  have hlarge := le_exp_half (hlow.trans hxy.le)
  set V : ℝ := Real.exp ((x : ℝ) / (2 * 10 ^ 9)) with hV
  set W : ℝ := Real.exp ((y : ℝ) / (2 * 10 ^ 9)) with hW
  -- the growth of the exact power outweighs the errors on both sides and one rounding
  have hgrowth : 1 + 6000 * W ≤ 10 ^ 18 * W ^ 2 - 10 ^ 18 * V ^ 2 := by
    have hquot : 10 ^ 18 * V ^ 2 ≤ 10 ^ 18 * W ^ 2 - 99 / 100 * (10 ^ 9 * W ^ 2) := by
      nlinarith
    nlinarith
  have hle : p ≤ q := by
    have hreal : (p : ℝ) ≤ q := by linarith
    exact_mod_cast hreal
  rw [hp, hq]
  exact max_le_max le_rfl (Int.tdiv_le_tdiv FixedPoint.one_pos hle)

/-! ## All arguments -/

theorem strictMonoOn_expValue : StrictMonoOn expValue (Set.Icc 0 expLimit) := by
  rintro x ⟨h0, -⟩ y ⟨-, hhigh⟩ hxy
  rcases le_or_gt y 500000000 with hhalf | hhalf
  · exact expValue_lt_of_le_half h0 hxy hhalf
  · exact expValue_lt_of_half_lt h0 hxy hhalf hhigh

/-- From zero to the limit every unit of the argument raises the exponential by a third of
its part in `10 ^ 9` at least. -/
theorem expValue_le_mul_sub {x y : Int} (h0 : 0 ≤ x) (hxy : x < y) (hy : y ≤ expLimit) :
    expValue x ≤ 3 * one * (expValue y - expValue x) := by
  have hgrown := strictMonoOn_expValue ⟨h0, hxy.le.trans hy⟩ ⟨h0.trans hxy.le, hy⟩ hxy
  have hunit : (expValue x : ℝ) + 1 ≤ expValue y := by exact_mod_cast hgrown
  have hdown := expValue_le h0 (hxy.le.trans hy)
  have hup := lt_expValue (h0.trans hxy.le) hy
  have hstep := exp_mul_le_of_lt hxy
  have hreal : (expValue x : ℝ) ≤ 3 * 10 ^ 9 * (expValue y - expValue x) := by linarith
  rw [← cast_one] at hreal
  exact_mod_cast hreal

theorem expValue_le_one {x : Int} (h : x ≤ 0) : expValue x ≤ one := by
  rw [← expValue_zero]
  rcases lt_or_ge x (-expLimit) with hlow | hlow
  · rw [expValue_of_lt_neg_limit hlow]
    exact expValue_nonneg 0
  rcases h.eq_or_lt with rfl | hneg
  · exact le_rfl
  · exact expValue_le_of_nonpos hlow hneg le_rfl

theorem expValue_le_greatest (x : Int) : expValue x ≤ Width.u128.greatest := by
  rcases lt_or_ge expLimit x with hhigh | hhigh
  · rw [expValue_of_limit_lt hhigh]
  rcases le_total 0 x with h0 | h0
  · exact (expValue_le_of_le_limit h0 hhigh).trans (by decide)
  · exact (expValue_le_one h0).trans (by decide)

theorem expValue_mono : Monotone expValue := by
  intro x y hxy
  rcases hxy.eq_or_lt with rfl | hlt
  · exact le_rfl
  rcases lt_or_ge x (-expLimit) with hlow | hlow
  · rw [expValue_of_lt_neg_limit hlow]
    exact expValue_nonneg y
  rcases lt_or_ge expLimit y with hhigh | hhigh
  · rw [expValue_of_limit_lt hhigh]
    exact expValue_le_greatest x
  rcases le_total y 0 with hy | hy
  · exact expValue_le_of_nonpos hlow hlt hy
  rcases le_total 0 x with hx | hx
  · exact (strictMonoOn_expValue ⟨hx, hxy.trans hhigh⟩ ⟨hy, hhigh⟩ hlt).le
  · exact (expValue_le_one hx).trans (one_le_expValue hy)

/-- The exponential vanishes just where its argument is flushed. -/
theorem expValue_eq_zero_iff {x : Int} : expValue x = 0 ↔ x < -expLimit := by
  constructor
  · intro hzero
    by_contra hlow
    have hleast : expValue (-expLimit) = 2 := expValue_eq_of_ok (by cbv)
    have hle := expValue_mono (not_lt.mp hlow)
    omega
  · exact expValue_of_lt_neg_limit

/-- The exponential never fails and never falls, strictly grows from zero to its limit, and
vanishes below the negative limit only. -/
theorem exp_keeps_order :
    (∀ x, exp x = .ok (expValue x)) ∧ Monotone expValue ∧
      StrictMonoOn expValue (Set.Icc 0 expLimit) ∧ ∀ x, expValue x = 0 ↔ x < -expLimit :=
  ⟨exp_eq_ok, expValue_mono, strictMonoOn_expValue, fun _ => expValue_eq_zero_iff⟩

end PredictionMarket.FixedPoint
