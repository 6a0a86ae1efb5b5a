import PredictionMarket.Proofs.FixedPoint.ExpSeries

/-!
# The error of the exponential

`exp` never fails: `expValue` is its value, and `exp_eq_ok` says so.  The main
statements compare the value with the exponential of the reals.

* `expValue_le` and `lt_expValue`: for an argument from zero to `expLimit` every
  rounding goes down, and less than one unit is lost beside a relative error of
  `3 * 10 ^ -15`.
* `abs_expValue_sub_lt`: for an argument from `-expLimit` to zero the value is
  less than one unit off, and a little more.

On the way, `reduced_argument` says that the halvings of the argument lose
nothing, and `squareTimes_growth` and `squareTimes_decay` follow the error
through the squarings: relative to the power where it grows, absolute where it
shrinks.
-/

namespace PredictionMarket.FixedPoint

/-! ## The reduced argument -/

/-- The halvings bring a magnitude down to one half. -/
theorem le_halvings (magnitude : Nat) : magnitude ≤ 500000000 * 2 ^ halvings magnitude := by
  induction magnitude using Nat.strongRecOn with
  | _ magnitude ih =>
    rw [halvings]
    split
    · omega
    · have hhalf := ih ((magnitude + 1) / 2) (by omega)
      rw [pow_succ]
      omega

/-- No halving is made in vain. -/
theorem halvings_le {magnitude k : Nat} (h : magnitude ≤ 500000000 * 2 ^ k) :
    halvings magnitude ≤ k := by
  induction k generalizing magnitude with
  | zero =>
    rw [halvings, if_pos (by omega)]
  | succ k ih =>
    rw [halvings]
    split
    · omega
    · rw [pow_succ] at h
      have hhalf : (magnitude + 1) / 2 ≤ 500000000 * 2 ^ k := by omega
      have := ih hhalf
      omega

/-- The argument of the series that `exp` runs. -/
def reducedArgument (x : Int) : Int := (x * one).tdiv (1 <<< halvings x.natAbs)

/-- The unit has nine factors of two, so up to nine halvings are exact. -/
theorem reducedArgument_mul {x : Int} (h : halvings x.natAbs ≤ 9) :
    reducedArgument x * 2 ^ halvings x.natAbs = x * one := by
  have hdvd : (2 : Int) ^ halvings x.natAbs ∣ x * one :=
    ((pow_dvd_pow 2 h).trans (by decide : (2 : Int) ^ 9 ∣ one)).mul_left x
  rw [reducedArgument, Nat.shiftLeft_eq, one_mul, Nat.cast_pow]
  exact Int.tdiv_mul_cancel hdvd

/-- The halvings of an argument within the limits lose nothing, and leave at most
one half of it. -/
theorem reduced_argument {x : Int} (hlow : -expLimit ≤ x) (hhigh : x ≤ expLimit) :
    halvings x.natAbs ≤ 6 ∧
      (2 : ℝ) ^ halvings x.natAbs * (reducedArgument x / 10 ^ 18) = x / 10 ^ 9 ∧
      |(reducedArgument x : ℝ) / 10 ^ 18| ≤ 1 / 2 := by
  have hlimit : expLimit = 20000000000 := rfl
  have hsix : halvings x.natAbs ≤ 6 := halvings_le (by norm_num; omega)
  have hexact := reducedArgument_mul (x := x) (by omega)
  set h := halvings x.natAbs with hh
  have hpow : (0 : ℝ) < 2 ^ h := by positivity
  have hreal : (reducedArgument x : ℝ) * 2 ^ h = x * 10 ^ 9 := by
    rw [← cast_one]
    exact_mod_cast hexact
  have hscaled : (2 : ℝ) ^ h * (reducedArgument x / 10 ^ 18) = x / 10 ^ 9 := by
    have : (2 : ℝ) ^ h * (reducedArgument x / 10 ^ 18) =
        (reducedArgument x : ℝ) * 2 ^ h / 10 ^ 18 := by ring
    rw [this, hreal]
    ring
  have habs : |(x : ℝ)| ≤ 500000000 * 2 ^ h := by
    have hnat : (x.natAbs : ℝ) ≤ 500000000 * 2 ^ h := by exact_mod_cast le_halvings x.natAbs
    rwa [Nat.cast_natAbs, Int.cast_abs] at hnat
  refine ⟨hsix, hscaled, ?_⟩
  have hsize : 2 ^ h * |(reducedArgument x : ℝ) / 10 ^ 18| ≤ 2 ^ h * (1 / 2) := by
    rw [← abs_of_pos hpow, ← abs_mul, abs_of_pos hpow, hscaled, abs_div,
      abs_of_pos (by norm_num : (0 : ℝ) < 10 ^ 9)]
    linarith
  exact le_of_mul_le_mul_left hsize hpow

theorem reduced_argument_nonpos {x : Int} (hlow : -expLimit ≤ x) (h0 : x ≤ 0) :
    (reducedArgument x : ℝ) / 10 ^ 18 ≤ 0 := by
  obtain ⟨-, hscaled, -⟩ := reduced_argument hlow (h0.trans (by decide))
  have hx0 : (x : ℝ) ≤ 0 := by exact_mod_cast h0
  have hprod : (2 : ℝ) ^ halvings x.natAbs * (reducedArgument x / 10 ^ 18) ≤ 0 := by
    rw [hscaled]
    exact div_nonpos_of_nonpos_of_nonneg hx0 (by norm_num)
  exact nonpos_of_mul_nonpos_right hprod (by positivity)

/-! ## The squarings -/

theorem squareTimes_succ (h : Nat) (s : Int) :
    squareTimes (h + 1) s = Width.i128.div (s * s) fineOne >>= squareTimes h := rfl

/-- One squaring of a number that fits. -/
theorem squareTimes_succ_of_fits {h : Nat} {s : Int}
    (hfits : Width.i128.Fits ((s * s).tdiv fineOne)) :
    squareTimes (h + 1) s = squareTimes h ((s * s).tdiv fineOne) := by
  rw [squareTimes_succ, Width.div_eq_ok_iff.mpr ⟨ne_of_gt fineOne_pos, hfits, rfl⟩, ok_bind]

/-- The square of an exponential with eighteen places. -/
theorem exp_sq (ρ : ℝ) :
    10 ^ 18 * Real.exp ρ * (10 ^ 18 * Real.exp ρ) / 10 ^ 18 = 10 ^ 18 * Real.exp (2 * ρ) := by
  rw [two_mul, Real.exp_add]
  ring

theorem exp_twenty_le : Real.exp 20 ≤ 5 * 10 ^ 8 := by
  have hpow : Real.exp 20 = Real.exp 1 ^ 20 := by
    rw [← Real.exp_nat_mul]
    norm_num
  rw [hpow]
  calc Real.exp 1 ^ 20 ≤ 2.7182818286 ^ 20 := by
        gcongr
        exact Real.exp_one_lt_d9.le
    _ ≤ 5 * 10 ^ 8 := by norm_num

/-- Squaring a number at most doubles the relative error below it. -/
theorem mul_self_low {V s δ : ℝ} (hV : 0 ≤ V) (hs : 0 ≤ s) (h : V * (1 - δ) ≤ s) :
    V * V * (1 - 2 * δ) ≤ s * s := by
  have hVV : 0 ≤ V * V := mul_self_nonneg V
  rcases le_total δ 1 with hδ | hδ
  · calc V * V * (1 - 2 * δ) ≤ V * V * ((1 - δ) * (1 - δ)) :=
          mul_le_mul_of_nonneg_left (by nlinarith [mul_self_nonneg δ]) hVV
      _ = V * (1 - δ) * (V * (1 - δ)) := by ring
      _ ≤ s * s := mul_le_mul h h (mul_nonneg hV (by linarith)) hs
  · calc V * V * (1 - 2 * δ) ≤ 0 := mul_nonpos_of_nonneg_of_nonpos hVV (by linarith)
      _ ≤ s * s := mul_self_nonneg s

/-- One squaring of a power that grows: it doubles the relative error and adds a unit
of the last place. -/
theorem square_growth {s : Int} {ρ δ : ℝ} (hρ : 0 ≤ ρ) (hs : 0 ≤ s)
    (hlow : 10 ^ 18 * Real.exp ρ * (1 - δ) ≤ s) (hhigh : (s : ℝ) ≤ 10 ^ 18 * Real.exp ρ) :
    0 ≤ (s * s).tdiv fineOne ∧
      10 ^ 18 * Real.exp (2 * ρ) * (1 - (2 * δ + 1 / 10 ^ 18)) ≤ ((s * s).tdiv fineOne : Int) ∧
      (((s * s).tdiv fineOne : Int) : ℝ) ≤ 10 ^ 18 * Real.exp (2 * ρ) := by
  have hone : (1 : ℝ) ≤ Real.exp (2 * ρ) := Real.one_le_exp (by linarith)
  have hpos : 0 ≤ 10 ^ 18 * Real.exp ρ := by positivity
  have hsr : (0 : ℝ) ≤ s := by exact_mod_cast hs
  have hsq : 0 ≤ s * s := mul_self_nonneg s
  have hdown := tdiv_le hsq fineOne_pos
  have hup := lt_tdiv hsq fineOne_pos
  rw [cast_fineOne] at hdown hup
  push_cast at hdown hup
  have hupper : (s : ℝ) * s / 10 ^ 18 ≤ 10 ^ 18 * Real.exp (2 * ρ) := by
    rw [← exp_sq]
    gcongr
  have hlower : 10 ^ 18 * Real.exp (2 * ρ) * (1 - 2 * δ) ≤ (s : ℝ) * s / 10 ^ 18 := by
    rw [← exp_sq, div_mul_eq_mul_div]
    exact div_le_div_of_nonneg_right (mul_self_low hpos hsr hlow) (by norm_num)
  refine ⟨Int.tdiv_nonneg hsq (le_of_lt fineOne_pos), ?_, hdown.trans hupper⟩
  linarith

/-- A power that grows: each squaring doubles the relative error and adds a unit
of the last place, and never leads above the exact power. -/
theorem squareTimes_growth {h : Nat} {s : Int} {ρ δ : ℝ} (hρ : 0 ≤ ρ) (hlimit : 2 ^ h * ρ ≤ 20)
    (hs : 0 ≤ s) (hlow : 10 ^ 18 * Real.exp ρ * (1 - δ) ≤ s)
    (hhigh : (s : ℝ) ≤ 10 ^ 18 * Real.exp ρ) :
    ∃ p, squareTimes h s = .ok p ∧ 0 ≤ p ∧
      10 ^ 18 * Real.exp (2 ^ h * ρ) * (1 - 2 ^ h * (δ + 1 / 10 ^ 18)) ≤ p ∧
      (p : ℝ) ≤ 10 ^ 18 * Real.exp (2 ^ h * ρ) := by
  induction h generalizing s ρ δ with
  | zero =>
    refine ⟨s, rfl, hs, ?_, by simpa using hhigh⟩
    have hpos : 0 < 10 ^ 18 * Real.exp ρ := by positivity
    rw [pow_zero, one_mul, one_mul]
    nlinarith
  | succ h ih =>
    have hdouble : 2 ^ h * (2 * ρ) = 2 ^ (h + 1) * ρ := by ring
    have hbounded : 2 * ρ ≤ 20 := by
      have h1 : (1 : ℝ) ≤ 2 ^ h := one_le_pow₀ (by norm_num)
      nlinarith
    obtain ⟨hnonneg, hlower, hupper⟩ := square_growth hρ hs hlow hhigh
    have hfits : Width.i128.Fits ((s * s).tdiv fineOne) := by
      apply i128_fits_of_abs_le
      have hcap : Real.exp (2 * ρ) ≤ 5 * 10 ^ 8 :=
        (Real.exp_le_exp.mpr hbounded).trans exp_twenty_le
      rw [abs_of_nonneg (by exact_mod_cast hnonneg)]
      linarith
    obtain ⟨p, hp, hp0, hplow, hphigh⟩ := ih (by linarith) (by rw [hdouble]; exact hlimit)
      hnonneg hlower hupper
    rw [hdouble] at hplow hphigh
    refine ⟨p, ?_, hp0, ?_, hphigh⟩
    · rw [squareTimes_succ_of_fits hfits, hp]
    · have herror : (2 : ℝ) ^ h * (2 * δ + 1 / 10 ^ 18 + 1 / 10 ^ 18) =
          2 ^ (h + 1) * (δ + 1 / 10 ^ 18) := by ring
      rwa [herror] at hplow

/-- One squaring of a power that shrinks: it doubles the error and adds two units. -/
theorem square_decay {s : Int} {ρ e : ℝ} (hρ : ρ ≤ 0) (he : 0 ≤ e) (hsmall : e ≤ 10 ^ 9)
    (hnear : |(s : ℝ) - 10 ^ 18 * Real.exp ρ| ≤ e) :
    |(((s * s).tdiv fineOne : Int) : ℝ) - 10 ^ 18 * Real.exp (2 * ρ)| ≤ 2 * e + 2 := by
  have hround := abs_tdiv_sub_lt (s * s) fineOne_pos
  rw [cast_fineOne] at hround
  push_cast at hround
  have hVle : 10 ^ 18 * Real.exp ρ ≤ 10 ^ 18 := by
    have := Real.exp_le_one_iff.mpr hρ
    linarith
  have hVpos : 0 < 10 ^ 18 * Real.exp ρ := by positivity
  rw [← exp_sq]
  set V := 10 ^ 18 * Real.exp ρ
  obtain ⟨hbelow, habove⟩ := abs_le.mp hnear
  have hsum : |(s : ℝ) + V| ≤ 2 * 10 ^ 18 + e := by
    rw [abs_le]
    constructor <;> linarith
  have hsq : |(s : ℝ) * s / 10 ^ 18 - V * V / 10 ^ 18| ≤ 2 * e + 1 := by
    have hsplit : (s : ℝ) * s / 10 ^ 18 - V * V / 10 ^ 18 =
        (s - V) * (s + V) / 10 ^ 18 := by ring
    rw [hsplit, abs_div, abs_mul, abs_of_pos (by norm_num : (0 : ℝ) < 10 ^ 18),
      div_le_iff₀ (by norm_num)]
    calc |(s : ℝ) - V| * |(s : ℝ) + V| ≤ e * (2 * 10 ^ 18 + e) := by gcongr
      _ ≤ (2 * e + 1) * 10 ^ 18 := by nlinarith
  apply (abs_sub_le _ ((s : ℝ) * s / 10 ^ 18) _).trans
  linarith

/-- A power that shrinks: each squaring doubles the error and adds at most two
units. -/
theorem squareTimes_decay {h : Nat} {s : Int} {ρ e : ℝ} (hρ : ρ ≤ 0)
    (hlimit : 2 ^ h * (e + 2) ≤ 10 ^ 9) (hnear : |(s : ℝ) - 10 ^ 18 * Real.exp ρ| ≤ e) :
    ∃ p, squareTimes h s = .ok p ∧
      |(p : ℝ) - 10 ^ 18 * Real.exp (2 ^ h * ρ)| ≤ 2 ^ h * (e + 2) := by
  have he : 0 ≤ e := (abs_nonneg _).trans hnear
  induction h generalizing s ρ e with
  | zero =>
    refine ⟨s, rfl, ?_⟩
    rw [pow_zero, one_mul, one_mul]
    linarith
  | succ h ih =>
    have hdouble : 2 ^ h * (2 * ρ) = 2 ^ (h + 1) * ρ := by ring
    have herror : (2 : ℝ) ^ h * (2 * e + 2 + 2) = 2 ^ (h + 1) * (e + 2) := by ring
    have hsmall : e ≤ 10 ^ 9 := by
      have h1 : (1 : ℝ) ≤ 2 ^ (h + 1) := one_le_pow₀ (by norm_num)
      nlinarith
    have hnext := square_decay hρ he hsmall hnear
    have hfits : Width.i128.Fits ((s * s).tdiv fineOne) := by
      apply i128_fits_of_abs_le
      have hexp : Real.exp (2 * ρ) ≤ 1 := Real.exp_le_one_iff.mpr (by linarith)
      have hexp0 : 0 < Real.exp (2 * ρ) := Real.exp_pos _
      obtain ⟨hl, hu⟩ := abs_le.mp hnext
      rw [abs_le]
      constructor <;> linarith
    obtain ⟨p, hp, hpnear⟩ :=
      ih (by linarith) (by rw [herror]; exact hlimit) hnext (by linarith)
    rw [hdouble, herror] at hpnear
    exact ⟨p, by rw [squareTimes_succ_of_fits hfits, hp], hpnear⟩

/-! ## The exponential -/

/-- The value of the exponential, which never fails. -/
def expValue (x : Int) : Int := (exp x).toOption.getD 0

theorem expValue_eq_of_ok {x v : Int} (h : exp x = .ok v) : expValue x = v := by
  rw [expValue, h]
  rfl

/-- Within the limits, the exponential squares the series at the reduced
argument. -/
theorem exp_of_within {x : Int} (hlow : -expLimit ≤ x) (hhigh : x ≤ expLimit) :
    exp x = expSeries (reducedArgument x) maxTerms 0 fineOne fineOne >>= fun sum =>
      squareTimes (halvings x.natAbs) sum >>= fun power => .ok (max 0 (power.tdiv one)) := by
  rw [exp, if_neg (by omega), if_neg (by omega)]
  rfl

/-- The exponential of an argument that is not negative, as a power rounded down
to nine places. -/
theorem exp_growth {x : Int} (h0 : 0 ≤ x) (hhigh : x ≤ expLimit) :
    ∃ p : Int, exp x = .ok (p.tdiv one) ∧ 0 ≤ p ∧
      10 ^ 18 * Real.exp (x / 10 ^ 9) * (1 - 3 / 10 ^ 15) ≤ p ∧
      (p : ℝ) ≤ 10 ^ 18 * Real.exp (x / 10 ^ 9) := by
  have hlow : -expLimit ≤ x := by
    have : (0 : Int) < expLimit := by decide
    omega
  obtain ⟨hsix, hscaled, hhalf⟩ := reduced_argument hlow hhigh
  obtain ⟨s, hs, hnear, hle⟩ := expSeries_start hhalf
  set h := halvings x.natAbs with hh
  set ρ : ℝ := (reducedArgument x : ℝ) / 10 ^ 18 with hρ
  have hpow : (0 : ℝ) < 2 ^ h := by positivity
  have hx0 : (0 : ℝ) ≤ x := by exact_mod_cast h0
  have hxl : (x : ℝ) / 10 ^ 9 ≤ 20 := by
    have : (x : ℝ) ≤ 20000000000 := by exact_mod_cast hhigh
    rw [div_le_iff₀ (by norm_num)]
    linarith
  have hρ0 : 0 ≤ ρ := by
    have : 0 ≤ (2 : ℝ) ^ h * ρ := by rw [hscaled]; positivity
    exact nonneg_of_mul_nonneg_right this hpow
  have hr0 : 0 ≤ reducedArgument x := by
    have hmul : (reducedArgument x : ℝ) = ρ * 10 ^ 18 := by
      rw [hρ, div_mul_cancel₀ _ (by norm_num)]
    have hreal : (0 : ℝ) ≤ reducedArgument x := by
      rw [hmul]
      positivity
    exact_mod_cast hreal
  have hV : (1 : ℝ) ≤ Real.exp ρ := Real.one_le_exp hρ0
  obtain ⟨hbelow, -⟩ := abs_le.mp hnear
  have hs0 : 0 ≤ s := by
    have : (0 : ℝ) ≤ s := by linarith
    exact_mod_cast this
  obtain ⟨p, hp, hp0, hplow, hphigh⟩ := squareTimes_growth (h := h) (δ := 44 / 10 ^ 18) hρ0
    (by rw [hscaled]; exact hxl) hs0 (by linarith) (hle hr0)
  rw [hscaled] at hplow hphigh
  have hquot : 0 ≤ p.tdiv one := Int.tdiv_nonneg hp0 (le_of_lt FixedPoint.one_pos)
  refine ⟨p, ?_, hp0, ?_, hphigh⟩
  · rw [exp_of_within hlow hhigh, hs, ok_bind, ← hh, hp, ok_bind, max_eq_right hquot]
  · refine le_trans ?_ hplow
    have h64 : (2 : ℝ) ^ h ≤ 2 ^ 6 := pow_le_pow_right₀ (by norm_num) hsix
    gcongr
    calc (2 : ℝ) ^ h * (44 / 10 ^ 18 + 1 / 10 ^ 18)
        ≤ 2 ^ 6 * (44 / 10 ^ 18 + 1 / 10 ^ 18) := by gcongr
      _ ≤ 3 / 10 ^ 15 := by norm_num

/-- The exponential of an argument that is not positive, as a power rounded to
nine places. -/
theorem exp_decay {x : Int} (hlow : -expLimit ≤ x) (h0 : x ≤ 0) :
    ∃ p : Int, exp x = .ok (max 0 (p.tdiv one)) ∧
      |(p : ℝ) - 10 ^ 18 * Real.exp (x / 10 ^ 9)| ≤ 3000 := by
  have hhigh : x ≤ expLimit := by
    have : (0 : Int) < expLimit := by decide
    omega
  obtain ⟨hsix, hscaled, hhalf⟩ := reduced_argument hlow hhigh
  obtain ⟨s, hs, hnear, -⟩ := expSeries_start hhalf
  have hρ0 := reduced_argument_nonpos hlow h0
  set h := halvings x.natAbs with hh
  set ρ : ℝ := (reducedArgument x : ℝ) / 10 ^ 18 with hρ
  have h64 : (2 : ℝ) ^ h ≤ 2 ^ 6 := pow_le_pow_right₀ (by norm_num) hsix
  obtain ⟨p, hp, hpnear⟩ := squareTimes_decay (h := h) hρ0 (by nlinarith) hnear
  rw [hscaled] at hpnear
  refine ⟨p, ?_, hpnear.trans (by nlinarith)⟩
  rw [exp_of_within hlow hhigh, hs, ok_bind, ← hh, hp, ok_bind]

/-- The exponential never fails. -/
theorem exp_eq_ok (x : Int) : exp x = .ok (expValue x) := by
  have hsome : ∃ v, exp x = .ok v := by
    by_cases hhigh : expLimit < x
    · exact ⟨_, by rw [exp, if_pos hhigh]⟩
    by_cases hlow : x < -expLimit
    · exact ⟨_, by rw [exp, if_neg hhigh, if_pos hlow]⟩
    rcases le_total 0 x with h0 | h0
    · obtain ⟨p, hp, -⟩ := exp_growth h0 (by omega)
      exact ⟨_, hp⟩
    · obtain ⟨p, hp, -⟩ := exp_decay (by omega) h0
      exact ⟨_, hp⟩
  obtain ⟨v, hv⟩ := hsome
  rw [hv, expValue_eq_of_ok hv]

/-- Above the limit the exponential saturates. -/
theorem expValue_of_limit_lt {x : Int} (h : expLimit < x) :
    expValue x = Width.u128.greatest :=
  expValue_eq_of_ok (by rw [exp, if_pos h])

/-- Below the negative limit the exponential vanishes. -/
theorem expValue_of_lt_neg_limit {x : Int} (h : x < -expLimit) : expValue x = 0 := by
  have : (0 : Int) < expLimit := by decide
  exact expValue_eq_of_ok (by rw [exp, if_neg (by omega), if_pos h])

theorem expValue_zero : expValue 0 = one :=
  expValue_eq_of_ok (by cbv)

/-- From zero to the limit the exponential is rounded down. -/
theorem expValue_le {x : Int} (h0 : 0 ≤ x) (h : x ≤ expLimit) :
    (expValue x : ℝ) ≤ 10 ^ 9 * Real.exp (x / 10 ^ 9) := by
  obtain ⟨p, hp, hp0, -, hphigh⟩ := exp_growth h0 h
  have hround := tdiv_le hp0 FixedPoint.one_pos
  rw [cast_one] at hround
  rw [expValue_eq_of_ok hp]
  apply hround.trans
  rw [div_le_iff₀ (by norm_num)]
  linarith

/-- From zero to the limit the exponential loses less than a unit, and a relative
error of `3 * 10 ^ -15`. -/
theorem lt_expValue {x : Int} (h0 : 0 ≤ x) (h : x ≤ expLimit) :
    10 ^ 9 * Real.exp (x / 10 ^ 9) * (1 - 3 / 10 ^ 15) < expValue x + 1 := by
  obtain ⟨p, hp, hp0, hplow, -⟩ := exp_growth h0 h
  have hround := lt_tdiv hp0 FixedPoint.one_pos
  rw [cast_one] at hround
  rw [expValue_eq_of_ok hp]
  refine lt_of_le_of_lt ?_ hround
  rw [le_div_iff₀ (by norm_num)]
  linarith

/-- From the negative limit to zero the exponential is hardly more than a unit
off. -/
theorem abs_expValue_sub_lt {x : Int} (hlow : -expLimit ≤ x) (h0 : x ≤ 0) :
    |(expValue x : ℝ) - 10 ^ 9 * Real.exp (x / 10 ^ 9)| < 1 + 3 / 10 ^ 6 := by
  obtain ⟨p, hp, hnear⟩ := exp_decay hlow h0
  have hround := abs_tdiv_sub_lt p FixedPoint.one_pos
  rw [cast_one] at hround
  have hpos : 0 ≤ 10 ^ 9 * Real.exp (x / 10 ^ 9) := by positivity
  have hscaled : |(p : ℝ) / 10 ^ 9 - 10 ^ 9 * Real.exp (x / 10 ^ 9)| ≤ 3 / 10 ^ 6 := by
    have hsplit : (p : ℝ) / 10 ^ 9 - 10 ^ 9 * Real.exp (x / 10 ^ 9) =
        (p - 10 ^ 18 * Real.exp (x / 10 ^ 9)) / 10 ^ 9 := by ring
    rw [hsplit, abs_div, abs_of_pos (by norm_num : (0 : ℝ) < 10 ^ 9), div_le_iff₀ (by norm_num)]
    linarith
  have hclose : |((p.tdiv one : Int) : ℝ) - 10 ^ 9 * Real.exp (x / 10 ^ 9)| < 1 + 3 / 10 ^ 6 := by
    refine (abs_sub_le _ ((p : ℝ) / 10 ^ 9) _).trans_lt ?_
    linarith
  rw [expValue_eq_of_ok hp]
  push_cast
  -- raising a value to zero brings it closer to a positive one
  rcases le_total 0 ((p.tdiv one : Int) : ℝ) with hq | hq
  · rw [max_eq_right hq]
    exact hclose
  · rw [max_eq_left hq, zero_sub, abs_neg, abs_of_nonneg hpos]
    rw [abs_of_nonpos (by linarith)] at hclose
    linarith

/-! ## Bounds on the value -/

theorem expValue_nonneg (x : Int) : 0 ≤ expValue x := by
  by_cases hhigh : expLimit < x
  · rw [expValue_of_limit_lt hhigh]
    decide
  by_cases hlow : x < -expLimit
  · rw [expValue_of_lt_neg_limit hlow]
  rcases le_total 0 x with h0 | h0
  · obtain ⟨p, hp, hp0, -⟩ := exp_growth h0 (by omega)
    rw [expValue_eq_of_ok hp]
    exact Int.tdiv_nonneg hp0 (le_of_lt FixedPoint.one_pos)
  · obtain ⟨p, hp, -⟩ := exp_decay (by omega) h0
    rw [expValue_eq_of_ok hp]
    exact le_max_left _ _

/-- The exponential of an argument that is not negative is at least one. -/
theorem one_le_expValue {x : Int} (h0 : 0 ≤ x) : one ≤ expValue x := by
  by_cases hhigh : expLimit < x
  · rw [expValue_of_limit_lt hhigh]
    decide
  rcases h0.eq_or_lt with rfl | hpos
  · rw [expValue_zero]
  · have hlow := lt_expValue h0 (not_lt.mp hhigh)
    -- the exponential is above one by more than the rounding may take
    have hx : (1 : ℝ) ≤ x := by exact_mod_cast hpos
    have hexp := Real.add_one_le_exp ((x : ℝ) / 10 ^ 9)
    have hreal : ((one - 1 : Int) : ℝ) < expValue x := by
      push_cast
      rw [cast_one]
      rw [div_add_one (by norm_num), div_le_iff₀ (by norm_num)] at hexp
      nlinarith
    have : one - 1 < expValue x := by exact_mod_cast hreal
    omega

theorem expValue_pos {x : Int} (h0 : 0 ≤ x) : 0 < expValue x :=
  lt_of_lt_of_le FixedPoint.one_pos (one_le_expValue h0)

/-- Up to the limit the exponential has at most nineteen digits. -/
theorem expValue_le_of_le_limit {x : Int} (h0 : 0 ≤ x) (h : x ≤ expLimit) :
    expValue x ≤ 1000000000000000000 := by
  have hle := expValue_le h0 h
  have hx : (x : ℝ) / 10 ^ 9 ≤ 20 := by
    have : (x : ℝ) ≤ 20000000000 := by exact_mod_cast h
    rw [div_le_iff₀ (by norm_num)]
    linarith
  have hcap := (Real.exp_le_exp.mpr hx).trans exp_twenty_le
  have hreal : (expValue x : ℝ) ≤ 1000000000000000000 := by linarith
  exact_mod_cast hreal

end PredictionMarket.FixedPoint
