import PredictionMarket.FixedPoint.Exp
import PredictionMarket.Proofs.FixedPoint.Rounding

/-!
# The error of the exponential series

`expSeries` rounds every term toward zero and stops at the first that vanishes.
This module compares it with the power series of the reals.

There are three groups.

* The exact series.  `expTerm` is its `n`-th term and `expRest` what follows
  behind it, both with eighteen places.  `abs_expRest_le` bounds the rest by
  twice its first term.
* The rounded terms.  `abs_expNext_sub_le` is the invariant: a term at most two
  units off is followed by a term at most two units off, as the argument is at
  most one half.
* The sums.  `expSeries_near` adds the errors up over a whole run, and
  `expSeries_le` says that for an argument that is not negative every rounding
  goes down.  `expSeries_start` puts both together for the run that `exp` makes.
-/

namespace PredictionMarket.FixedPoint

open Finset

/-! ## The exact series -/

/-- The `n`-th term of the power series of the exponential at `ρ`, with eighteen
places. -/
noncomputable def expTerm (ρ : ℝ) (n : Nat) : ℝ := fineOne * (ρ ^ n / n.factorial)

/-- What the power series adds behind its `n`-th term. -/
noncomputable def expRest (ρ : ℝ) (n : Nat) : ℝ :=
  fineOne * (Real.exp ρ - ∑ m ∈ range (n + 1), ρ ^ m / m.factorial)

theorem expTerm_zero (ρ : ℝ) : expTerm ρ 0 = 10 ^ 18 := by simp [expTerm, cast_fineOne]

theorem expTerm_succ (ρ : ℝ) (n : Nat) : expTerm ρ (n + 1) = expTerm ρ n * ρ / (n + 1) := by
  unfold expTerm
  rw [Nat.factorial_succ]
  push_cast
  field_simp
  ring

theorem abs_expTerm (ρ : ℝ) (n : Nat) : |expTerm ρ n| = 10 ^ 18 * (|ρ| ^ n / n.factorial) := by
  have hfac : (0 : ℝ) < n.factorial := by exact_mod_cast Nat.factorial_pos n
  rw [expTerm, cast_fineOne, abs_mul, abs_div, abs_pow ρ, abs_of_pos hfac, abs_of_pos (by norm_num)]

theorem expRest_eq_add (ρ : ℝ) (n : Nat) :
    expRest ρ n = expTerm ρ (n + 1) + expRest ρ (n + 1) := by
  unfold expRest expTerm
  rw [sum_range_succ _ (n + 1)]
  ring

/-- All the terms from the first on make up the exponential. -/
theorem expRest_zero (ρ : ℝ) : 10 ^ 18 + expRest ρ 0 = 10 ^ 18 * Real.exp ρ := by
  rw [expRest, cast_fineOne, zero_add, sum_range_one, pow_zero, Nat.factorial_zero,
    Nat.cast_one, div_one]
  ring

/-- The rest is at most twice as large as its first term. -/
theorem abs_expRest_le {ρ : ℝ} (hρ : |ρ| ≤ 1) (n : Nat) :
    |expRest ρ n| ≤ 2 * |expTerm ρ (n + 1)| := by
  have hbound := Real.exp_bound hρ (Nat.succ_pos n)
  have hfac : (0 : ℝ) < (n + 1).factorial := by exact_mod_cast Nat.factorial_pos _
  have hratio : ((n + 1).succ : ℝ) / ((n + 1).factorial * (n + 1 : Nat)) ≤
      2 / (n + 1).factorial := by
    rw [div_le_div_iff₀ (by positivity) hfac]
    push_cast
    nlinarith
  have hle : |Real.exp ρ - ∑ m ∈ range (n + 1), ρ ^ m / m.factorial| ≤
      |ρ| ^ (n + 1) * (2 / (n + 1).factorial) :=
    hbound.trans (mul_le_mul_of_nonneg_left hratio (by positivity))
  rw [expRest, cast_fineOne, abs_expTerm, abs_mul, abs_of_pos (by norm_num)]
  calc (10 : ℝ) ^ 18 * |Real.exp ρ - ∑ m ∈ range (n + 1), ρ ^ m / m.factorial|
      ≤ 10 ^ 18 * (|ρ| ^ (n + 1) * (2 / (n + 1).factorial)) := by gcongr
    _ = 2 * (10 ^ 18 * (|ρ| ^ (n + 1) / (n + 1).factorial)) := by ring

theorem abs_expTerm_le {ρ : ℝ} (hρ : |ρ| ≤ 1) (n : Nat) : |expTerm ρ n| ≤ 10 ^ 18 := by
  have hfac : (1 : ℝ) ≤ n.factorial := by exact_mod_cast Nat.factorial_pos n
  have hpow : |ρ| ^ n ≤ 1 := pow_le_one₀ (abs_nonneg ρ) hρ
  have hquot : |ρ| ^ n / n.factorial ≤ 1 := by
    rw [div_le_one (by positivity)]
    exact hpow.trans hfac
  rw [abs_expTerm]
  linarith

/-- Behind the twentieth term nothing is left to see. -/
theorem abs_expRest_twenty_le {ρ : ℝ} (hρ : |ρ| ≤ 1 / 2) : |expRest ρ 20| ≤ 4 := by
  have hrest := abs_expRest_le (hρ.trans (by norm_num)) 20
  have hpow : |ρ| ^ 21 ≤ (1 / 2) ^ 21 := pow_le_pow_left₀ (abs_nonneg ρ) hρ 21
  have hterm : |expTerm ρ 21| ≤ 1 := by
    rw [abs_expTerm]
    norm_num [Nat.factorial] at hpow ⊢
    linarith
  linarith

/-! ## The rounded terms -/

/-- The term behind the `n`-th, as the series computes it. -/
def expNext (r : Int) (n : Nat) (term : Int) : Int := ((term * r).tdiv fineOne).tdiv (n + 1)

theorem expSeries_succ (r : Int) (left n : Nat) (sum term : Int) :
    expSeries r (left + 1) n sum term =
      if expNext r n term = 0 then .ok sum
      else Width.i128.add sum (expNext r n term) >>= fun sum =>
        expSeries r left (n + 1) sum (expNext r n term) := rfl

/-- The two roundings of a term are one. -/
theorem expNext_eq (r : Int) (n : Nat) (term : Int) :
    expNext r n term = (term * r).tdiv (fineOne * (n + 1)) := by
  rw [expNext, tdiv_tdiv _ (le_of_lt fineOne_pos)]

/-- The exact quotient that a computed term stands for. -/
theorem cast_quotient (r : Int) (n : Nat) (term : Int) :
    ((term * r : Int) : ℝ) / ((fineOne * (n + 1) : Int) : ℝ) =
      term * ((r : ℝ) / 10 ^ 18) / (n + 1) := by
  push_cast
  rw [cast_fineOne]
  field_simp

/-- Errors do not pile up in the terms: two units off stay two units off. -/
theorem abs_expNext_sub_le {r : Int} (hr : |(r : ℝ) / 10 ^ 18| ≤ 1 / 2) {n : Nat} {term : Int}
    (h : |(term : ℝ) - expTerm (r / 10 ^ 18) n| ≤ 2) :
    |(expNext r n term : ℝ) - expTerm (r / 10 ^ 18) (n + 1)| ≤ 2 := by
  set ρ : ℝ := (r : ℝ) / 10 ^ 18 with hρ
  have hden : (0 : Int) < fineOne * (n + 1) := by
    have := fineOne_pos
    positivity
  have hround := abs_tdiv_sub_lt (term * r) hden
  rw [← expNext_eq, cast_quotient, ← hρ] at hround
  have hn : (1 : ℝ) ≤ n + 1 := by
    have : (0 : ℝ) ≤ n := Nat.cast_nonneg n
    linarith
  have hcarry : |term * ρ / (n + 1) - expTerm ρ (n + 1)| ≤ 1 := by
    have hsplit : term * ρ / (n + 1) - expTerm ρ (n + 1) =
        (term - expTerm ρ n) * ρ / (n + 1) := by
      rw [expTerm_succ]
      ring
    rw [hsplit, abs_div, abs_mul, abs_of_pos (by linarith : (0 : ℝ) < n + 1),
      div_le_one (by linarith)]
    calc |(term : ℝ) - expTerm ρ n| * |ρ| ≤ 2 * (1 / 2) := by gcongr
      _ ≤ n + 1 := by linarith
  calc |(expNext r n term : ℝ) - expTerm ρ (n + 1)|
      ≤ |(expNext r n term : ℝ) - term * ρ / (n + 1)| +
          |term * ρ / (n + 1) - expTerm ρ (n + 1)| := abs_sub_le _ _ _
    _ ≤ 2 := by linarith

/-- For an argument that is not negative the terms are rounded down. -/
theorem expNext_le {r : Int} (hr : 0 ≤ r) {n : Nat} {term : Int} (hterm : 0 ≤ term)
    (h : (term : ℝ) ≤ expTerm (r / 10 ^ 18) n) :
    0 ≤ expNext r n term ∧ (expNext r n term : ℝ) ≤ expTerm (r / 10 ^ 18) (n + 1) := by
  have hden : (0 : Int) < fineOne * (n + 1) := by
    have := fineOne_pos
    positivity
  have hprod : 0 ≤ term * r := mul_nonneg hterm hr
  have hround := tdiv_le hprod hden
  rw [cast_quotient] at hround
  have hρ : (0 : ℝ) ≤ r / 10 ^ 18 := by
    have : (0 : ℝ) ≤ r := by exact_mod_cast hr
    positivity
  refine ⟨?_, ?_⟩
  · rw [expNext_eq]
    exact Int.tdiv_nonneg hprod (le_of_lt hden)
  · rw [expNext_eq, expTerm_succ]
    apply hround.trans
    gcongr

/-! ## The sums -/

/-- A whole run of the series stays within two units for each term that may be
added, and four for the terms that are not. -/
theorem expSeries_near {r : Int} (hr : |(r : ℝ) / 10 ^ 18| ≤ 1 / 2) {left n : Nat}
    (hn : n + left = 20) {sum term : Int} (hterm : |(term : ℝ) - expTerm (r / 10 ^ 18) n| ≤ 2)
    (hsum : |(sum : ℝ)| ≤ 2 * 10 ^ 18 * (n + 1)) :
    ∃ s, expSeries r left n sum term = .ok s ∧
      |(s : ℝ) - sum - expRest (r / 10 ^ 18) n| ≤ 2 * left + 4 := by
  have hr1 : |(r : ℝ) / 10 ^ 18| ≤ 1 := hr.trans (by norm_num)
  induction left generalizing n sum term with
  | zero =>
    obtain rfl : n = 20 := by omega
    have hrest := abs_expRest_twenty_le hr
    refine ⟨sum, rfl, ?_⟩
    rw [sub_self, zero_sub, abs_neg]
    simpa using hrest
  | succ left ih =>
    have hnext := abs_expNext_sub_le hr hterm
    have hexact := abs_expTerm_le hr1 (n + 1)
    rw [expSeries_succ]
    split
    · rename_i hzero
      -- a term that vanishes is within two units of the exact one
      rw [hzero, Int.cast_zero, zero_sub, abs_neg] at hnext
      have hrest := abs_expRest_le hr1 n
      have hleft : (0 : ℝ) ≤ left := Nat.cast_nonneg left
      refine ⟨sum, rfl, ?_⟩
      rw [sub_self, zero_sub, abs_neg]
      push_cast
      linarith
    · have hsize : |(expNext r n term : ℝ)| ≤ 2 * 10 ^ 18 := by
        have := abs_sub_abs_le_abs_sub (expNext r n term : ℝ) (expTerm (r / 10 ^ 18) (n + 1))
        linarith
      have hnew : |((sum + expNext r n term : Int) : ℝ)| ≤ 2 * 10 ^ 18 * ((n + 1 : Nat) + 1) := by
        push_cast
        have := abs_add_le (sum : ℝ) (expNext r n term)
        linarith
      have hfits : Width.i128.Fits (sum + expNext r n term) := by
        refine i128_fits_of_abs_le (hnew.trans ?_)
        have : (n : ℝ) ≤ 20 := by exact_mod_cast (by omega : n ≤ 20)
        push_cast
        linarith
      obtain ⟨s, hs, hnear⟩ := ih (n := n + 1) (by omega) hnext hnew
      refine ⟨s, ?_, ?_⟩
      · rw [Width.add_eq_ok_iff.mpr ⟨hfits, rfl⟩, ok_bind, hs]
      · apply (abs_sub_rest_le (expRest_eq_add _ n) hnear hnext).trans
        push_cast
        linarith

/-- For an argument that is not negative the sum is rounded down. -/
theorem expSeries_le {r : Int} (hr : 0 ≤ r) {left n : Nat} {sum term s : Int}
    (hs : expSeries r left n sum term = .ok s) (hterm : 0 ≤ term)
    (hle : (term : ℝ) ≤ expTerm (r / 10 ^ 18) n) :
    (s : ℝ) ≤ sum + expRest (r / 10 ^ 18) n := by
  have hρ : (0 : ℝ) ≤ r / 10 ^ 18 := by
    have : (0 : ℝ) ≤ r := by exact_mod_cast hr
    positivity
  have hrest (k : Nat) : 0 ≤ expRest (r / 10 ^ 18) k := by
    have := Real.sum_le_exp_of_nonneg hρ (k + 1)
    rw [expRest, cast_fineOne]
    linarith
  induction left generalizing n sum term with
  | zero =>
    obtain rfl : sum = s := by simpa [expSeries] using hs
    linarith [hrest n]
  | succ left ih =>
    rw [expSeries_succ] at hs
    split at hs
    · obtain rfl : sum = s := by simpa using hs
      linarith [hrest n]
    · obtain ⟨hnonneg, hnext⟩ := expNext_le hr hterm hle
      obtain ⟨total, hadd, hs⟩ := bind_eq_ok_iff.mp hs
      obtain ⟨-, rfl⟩ := Width.add_eq_ok_iff.mp hadd
      have hfrom := ih hs hnonneg hnext
      rw [expRest_eq_add]
      push_cast at hfrom
      linarith

/-- The series at a reduced argument is less than fifty units off, and not above
the exponential for an argument that is not negative. -/
theorem expSeries_start {r : Int} (hr : |(r : ℝ) / 10 ^ 18| ≤ 1 / 2) :
    ∃ s, expSeries r maxTerms 0 fineOne fineOne = .ok s ∧
      |(s : ℝ) - 10 ^ 18 * Real.exp (r / 10 ^ 18)| ≤ 44 ∧
      (0 ≤ r → (s : ℝ) ≤ 10 ^ 18 * Real.exp (r / 10 ^ 18)) := by
  have hterm : |((fineOne : Int) : ℝ) - expTerm (r / 10 ^ 18) 0| ≤ 2 := by
    rw [cast_fineOne, expTerm_zero]
    norm_num
  have hsum : |((fineOne : Int) : ℝ)| ≤ 2 * 10 ^ 18 * ((0 : Nat) + 1) := by
    rw [cast_fineOne]
    norm_num
  have hleft : 0 + maxTerms = 20 := rfl
  obtain ⟨s, hs, hnear⟩ := expSeries_near hr hleft hterm hsum
  refine ⟨s, hs, ?_, ?_⟩
  · rw [← expRest_zero]
    rw [cast_fineOne, sub_sub] at hnear
    norm_num [maxTerms] at hnear ⊢
    exact hnear
  · intro hnonneg
    have hle := expSeries_le hnonneg hs (le_of_lt fineOne_pos)
      (by rw [cast_fineOne, expTerm_zero])
    rwa [cast_fineOne, expRest_zero] at hle

end PredictionMarket.FixedPoint
