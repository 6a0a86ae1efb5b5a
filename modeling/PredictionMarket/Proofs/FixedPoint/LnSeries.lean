import PredictionMarket.FixedPoint.Ln
import PredictionMarket.Proofs.FixedPoint.Rounding

/-!
# The error of the logarithm series

`lnSeries` rounds every power and every term down and stops at the first term
that vanishes.  This module compares it with the alternating series of the reals
for the logarithm of `1 + Y`, where `Y` is at most one sixteenth.

`lnPower` is the exact power behind a term, `lnTerm` the term and `lnRest` what
the series adds from there on, all with eighteen places.  `lnPower_next` is the
invariant of the powers, two units at most, and `lnSeries_near` adds the errors
up over a whole run.  `lnSeries_start` is the run that `ln` makes.
-/

namespace PredictionMarket.FixedPoint

open Finset

/-! ## The exact series -/

/-- The power of `Y` in the term at place `k`, the first at place zero. -/
noncomputable def lnPower (Y : ℝ) (k : Nat) : ℝ := fineOne * Y ^ (k + 1)

/-- The term at place `k`. -/
noncomputable def lnTerm (Y : ℝ) (k : Nat) : ℝ := (-1) ^ k * (lnPower Y k / (k + 1))

/-- What the series adds from place `k` on. -/
noncomputable def lnRest (Y : ℝ) (k : Nat) : ℝ :=
  fineOne * (Real.log (1 + Y) - ∑ i ∈ range k, (-1) ^ i * (Y ^ (i + 1) / (i + 1)))

theorem lnRest_eq_add (Y : ℝ) (k : Nat) : lnRest Y k = lnTerm Y k + lnRest Y (k + 1) := by
  unfold lnRest lnTerm lnPower
  rw [sum_range_succ]
  ring

theorem lnRest_zero (Y : ℝ) : lnRest Y 0 = 10 ^ 18 * Real.log (1 + Y) := by
  rw [lnRest, cast_fineOne, sum_range_zero, sub_zero]

theorem lnPower_succ (Y : ℝ) (k : Nat) : lnPower Y (k + 1) = lnPower Y k * Y := by
  unfold lnPower
  rw [cast_fineOne]
  ring

theorem lnPower_le {Y : ℝ} (hY : 0 ≤ Y) (hY1 : Y ≤ 1 / 16) (k : Nat) :
    lnPower Y k ≤ 10 ^ 18 := by
  have hpow : Y ^ (k + 1) ≤ 1 := pow_le_one₀ hY (by linarith)
  unfold lnPower
  rw [cast_fineOne]
  linarith

/-- The rest is hardly larger than its first power. -/
theorem abs_lnRest_le {Y : ℝ} (hY : 0 ≤ Y) (hY1 : Y ≤ 1 / 16) (k : Nat) :
    |lnRest Y k| ≤ 16 / 15 * lnPower Y k := by
  have habs : |-Y| = Y := by rw [abs_neg, abs_of_nonneg hY]
  have hbound := Real.abs_log_sub_add_sum_range_le (x := -Y) (by rw [habs]; linarith) k
  rw [habs, sub_neg_eq_add] at hbound
  have hsum : ∑ i ∈ range k, (-Y) ^ (i + 1) / (i + 1 : ℝ) =
      -∑ i ∈ range k, (-1) ^ i * (Y ^ (i + 1) / (i + 1)) := by
    rw [← sum_neg_distrib]
    apply sum_congr rfl
    intro i _
    rw [neg_pow]
    ring
  rw [hsum, neg_add_eq_sub] at hbound
  have hfrac : Y ^ (k + 1) / (1 - Y) ≤ 16 / 15 * Y ^ (k + 1) := by
    rw [div_le_iff₀ (by linarith)]
    have : 0 ≤ Y ^ (k + 1) := by positivity
    nlinarith
  rw [lnRest, lnPower, cast_fineOne, abs_mul, abs_of_pos (by norm_num)]
  linarith

/-- Behind the twentieth term nothing is left to see. -/
theorem abs_lnRest_twenty_le {Y : ℝ} (hY : 0 ≤ Y) (hY1 : Y ≤ 1 / 16) : |lnRest Y 20| ≤ 1 := by
  have hrest := abs_lnRest_le hY hY1 20
  have hpow : Y ^ 21 ≤ (1 / 16) ^ 21 := pow_le_pow_left₀ hY hY1 21
  have hsmall : lnPower Y 20 ≤ 1 / 2 := by
    rw [lnPower, cast_fineOne]
    norm_num at hpow ⊢
    linarith
  linarith

/-! ## The rounded powers and terms -/

/-- Errors do not pile up in the powers: two units below stay two units below. -/
theorem lnPower_next {y power : Int} (hy : 0 ≤ y) (hY1 : (y : ℝ) / 10 ^ 18 ≤ 1 / 16) {k : Nat}
    (h0 : 0 ≤ power) (hlow : lnPower (y / 10 ^ 18) k - 2 ≤ power)
    (hhigh : (power : ℝ) ≤ lnPower (y / 10 ^ 18) k) :
    0 ≤ (power * y).tdiv fineOne ∧
      lnPower (y / 10 ^ 18) (k + 1) - 2 ≤ ((power * y).tdiv fineOne : Int) ∧
      (((power * y).tdiv fineOne : Int) : ℝ) ≤ lnPower (y / 10 ^ 18) (k + 1) := by
  have hyr : (0 : ℝ) ≤ y := by exact_mod_cast hy
  have hY : (0 : ℝ) ≤ y / 10 ^ 18 := by positivity
  have hprod : 0 ≤ power * y := mul_nonneg h0 hy
  have hdown := tdiv_le hprod fineOne_pos
  have hup := lt_tdiv hprod fineOne_pos
  have hquot : ((power * y : Int) : ℝ) / (fineOne : Int) = power * ((y : ℝ) / 10 ^ 18) := by
    rw [cast_fineOne]
    push_cast
    ring
  rw [hquot] at hdown hup
  rw [lnPower_succ]
  refine ⟨Int.tdiv_nonneg hprod (le_of_lt fineOne_pos), ?_, ?_⟩
  · nlinarith
  · exact hdown.trans (mul_le_mul_of_nonneg_right hhigh hY)

/-- The sign of a term alternates with its place. -/
theorem cast_signed (k : Nat) (magnitude : Int) :
    ((if (k + 1) % 2 = 1 then magnitude else -magnitude : Int) : ℝ) = (-1) ^ k * magnitude := by
  rcases Nat.even_or_odd k with hk | hk
  · rw [if_pos (by have := Nat.even_iff.mp hk; omega), hk.neg_one_pow, one_mul]
  · rw [if_neg (by have := Nat.odd_iff.mp hk; omega), hk.neg_one_pow]
    push_cast
    ring

/-- A power at most two units below makes a term at most three units off. -/
theorem abs_term_sub_le {Y : ℝ} {power : Int} {k : Nat} (h0 : 0 ≤ power)
    (hlow : lnPower Y k - 2 ≤ power) (hhigh : (power : ℝ) ≤ lnPower Y k) :
    |(-1) ^ k * ((power.tdiv (k + 1 : Nat) : Int) : ℝ) - lnTerm Y k| ≤ 3 := by
  have hk : (0 : Int) < (k + 1 : Nat) := by positivity
  have hk1 : (1 : ℝ) ≤ (k : ℝ) + 1 := by
    have : (0 : ℝ) ≤ k := Nat.cast_nonneg k
    linarith
  have hdown := tdiv_le h0 hk
  have hup := lt_tdiv h0 hk
  have hcast : (((k + 1 : Nat) : Int) : ℝ) = k + 1 := by push_cast; ring
  rw [hcast] at hdown hup
  have hle : (power : ℝ) / (k + 1) ≤ lnPower Y k / (k + 1) := by gcongr
  have hge : lnPower Y k / (k + 1) - 2 ≤ (power : ℝ) / (k + 1) := by
    rw [div_sub' (by positivity)]
    gcongr
    nlinarith
  rw [lnTerm, ← mul_sub, abs_mul, abs_pow, abs_neg, abs_one, one_pow, one_mul, abs_le]
  constructor <;> linarith

/-- No term is larger than twice the first one can be. -/
theorem abs_term_le {Y : ℝ} (hY : 0 ≤ Y) (hY1 : Y ≤ 1 / 16) {power : Int} {k : Nat}
    (h0 : 0 ≤ power) (hhigh : (power : ℝ) ≤ lnPower Y k) :
    |(-1) ^ k * ((power.tdiv (k + 1 : Nat) : Int) : ℝ)| ≤ 2 * 10 ^ 18 := by
  have hpos : (0 : Int) < (k + 1 : Nat) := by positivity
  have hdown := tdiv_le h0 hpos
  have hone : (1 : ℝ) ≤ ((k + 1 : Nat) : Int) := by exact_mod_cast (by omega : 1 ≤ k + 1)
  have hquot : (power : ℝ) / ((k + 1 : Nat) : Int) ≤ power :=
    div_le_self (by exact_mod_cast h0) hone
  have hnonneg : (0 : ℝ) ≤ (power.tdiv (k + 1 : Nat) : Int) := by
    exact_mod_cast Int.tdiv_nonneg h0 (le_of_lt hpos)
  rw [abs_mul, abs_pow, abs_neg, abs_one, one_pow, one_mul, abs_of_nonneg hnonneg]
  linarith [lnPower_le hY hY1 k]

/-! ## The sum -/

theorem lnSeries_succ (y : Int) (left k : Nat) (sum power : Int) :
    lnSeries y (left + 1) (k + 1) sum power =
      if power.tdiv (k + 1 : Nat) = 0 then .ok sum
      else Width.i128.add sum
          (if (k + 1) % 2 = 1 then power.tdiv (k + 1 : Nat) else -power.tdiv (k + 1 : Nat)) >>=
        fun sum => lnSeries y left (k + 2) sum ((power * y).tdiv fineOne) := rfl

/-- Where the whole sum is reached, the sum of the first terms is reached and fits, however many
they are. -/
theorem exists_partial_sum {y : Int} {left more k : Nat} {sum power s : Int}
    (h : lnSeries y (left + more) (k + 1) sum power = .ok s) (hsum : Width.i128.Fits sum) :
    ∃ s', lnSeries y left (k + 1) sum power = .ok s' ∧ Width.i128.Fits s' := by
  induction left generalizing k sum power with
  | zero => exact ⟨sum, rfl, hsum⟩
  | succ left ih =>
    rw [Nat.succ_add, lnSeries_succ] at h
    rw [lnSeries_succ]
    split at h
    · rename_i hzero
      exact ⟨sum, if_pos hzero, hsum⟩
    · rename_i hne
      obtain ⟨next, hadd, hrest⟩ := bind_eq_ok_iff.mp h
      obtain ⟨hfits, hnext⟩ := Width.add_eq_ok_iff.mp hadd
      rw [if_neg hne, hadd, ok_bind]
      exact ih hrest (hnext ▸ hfits)

/-- A whole run of the series stays within three units for each term that may be
added, and thirty for the terms that are not. -/
theorem lnSeries_near {y : Int} (hy : 0 ≤ y) (hY1 : (y : ℝ) / 10 ^ 18 ≤ 1 / 16) {left k : Nat}
    (hk : k + left = 20) {sum power : Int} (h0 : 0 ≤ power)
    (hlow : lnPower (y / 10 ^ 18) k - 2 ≤ power) (hhigh : (power : ℝ) ≤ lnPower (y / 10 ^ 18) k)
    (hsum : |(sum : ℝ)| ≤ 2 * 10 ^ 18 * k) :
    ∃ s, lnSeries y left (k + 1) sum power = .ok s ∧
      |(s : ℝ) - sum - lnRest (y / 10 ^ 18) k| ≤ 3 * left + 30 := by
  have hY : (0 : ℝ) ≤ y / 10 ^ 18 := by
    have : (0 : ℝ) ≤ y := by exact_mod_cast hy
    positivity
  induction left generalizing k sum power with
  | zero =>
    obtain rfl : k = 20 := by omega
    have hrest := abs_lnRest_twenty_le hY hY1
    refine ⟨sum, rfl, ?_⟩
    rw [sub_self, zero_sub, abs_neg]
    push_cast
    linarith
  | succ left ih =>
    have hk20 : (k : ℝ) ≤ 19 := by exact_mod_cast (by omega : k ≤ 19)
    have hpos : (0 : Int) < (k + 1 : Nat) := by positivity
    have hterm := abs_term_sub_le h0 hlow hhigh
    rw [lnSeries_succ]
    split
    · rename_i hzero
      -- the power behind a term that vanishes is below the place of the term
      have hup := lt_tdiv h0 hpos
      rw [hzero, Int.cast_zero, zero_add, div_lt_one (by positivity)] at hup
      have hrest := abs_lnRest_le hY hY1 k
      have hleft : (0 : ℝ) ≤ left := Nat.cast_nonneg left
      refine ⟨sum, rfl, ?_⟩
      rw [sub_self, zero_sub, abs_neg]
      push_cast at hup ⊢
      linarith
    · rw [← cast_signed] at hterm
      set t : Int := if (k + 1) % 2 = 1 then power.tdiv (k + 1 : Nat)
        else -power.tdiv (k + 1 : Nat) with ht
      have hsize : |(t : ℝ)| ≤ 2 * 10 ^ 18 := by
        rw [ht, cast_signed]
        exact abs_term_le hY hY1 h0 hhigh
      have hnew : |((sum + t : Int) : ℝ)| ≤ 2 * 10 ^ 18 * ((k + 1 : Nat) : ℝ) := by
        push_cast
        have := abs_add_le (sum : ℝ) t
        linarith
      have hfits : Width.i128.Fits (sum + t) := by
        refine i128_fits_of_abs_le (hnew.trans ?_)
        push_cast
        linarith
      obtain ⟨hpow0, hpowlow, hpowhigh⟩ := lnPower_next hy hY1 h0 hlow hhigh
      obtain ⟨s, hs, hnear⟩ := ih (k := k + 1) (by omega) hpow0 hpowlow hpowhigh hnew
      refine ⟨s, ?_, ?_⟩
      · rw [Width.add_eq_ok_iff.mpr ⟨hfits, rfl⟩, ok_bind, hs]
      · apply (abs_sub_rest_le (lnRest_eq_add _ k) hnear hterm).trans
        push_cast
        linarith

/-- The series at a number from one up to the ceiling is at most ninety units
off. -/
theorem lnSeries_start {v : Int} (hlow : fineOne ≤ v) (hhigh : v ≤ seriesCeiling) :
    ∃ s, lnSeries (v - fineOne) maxTerms 1 0 (v - fineOne) = .ok s ∧
      |(s : ℝ) - fineLog v| ≤ 90 := by
  have hy : 0 ≤ v - fineOne := by omega
  have hcast : ((v - fineOne : Int) : ℝ) / 10 ^ 18 = v / 10 ^ 18 - 1 := by
    push_cast
    rw [cast_fineOne, sub_div, div_self (by norm_num)]
  have hY1 : ((v - fineOne : Int) : ℝ) / 10 ^ 18 ≤ 1 / 16 := by
    have hv : (v : ℝ) ≤ 1062500000000000000 := by exact_mod_cast hhigh
    rw [hcast]
    linarith
  have hfirst : lnPower (((v - fineOne : Int) : ℝ) / 10 ^ 18) 0 = (v - fineOne : Int) := by
    rw [lnPower, cast_fineOne, zero_add, pow_one]
    ring
  have hlow : lnPower (((v - fineOne : Int) : ℝ) / 10 ^ 18) 0 - 2 ≤ (v - fineOne : Int) := by
    linarith
  have hsum : |((0 : Int) : ℝ)| ≤ 2 * 10 ^ 18 * (0 : Nat) := by norm_num
  have hleft : 0 + maxTerms = 20 := rfl
  obtain ⟨s, hs, hnear⟩ := lnSeries_near hy hY1 hleft hy hlow (le_of_eq hfirst.symm) hsum
  refine ⟨s, hs, ?_⟩
  rw [lnRest_zero, hcast, add_sub_cancel, Int.cast_zero, sub_zero] at hnear
  rw [fineLog]
  exact hnear.trans (by norm_num [maxTerms])

end PredictionMarket.FixedPoint
