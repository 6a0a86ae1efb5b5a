import Mathlib
import PredictionMarket.FixedPoint.Decimal
import PredictionMarket.Proofs.Decimal
import PredictionMarket.Proofs.Text.Digits

/-!
# Texts that are read back

A number with nine places is written by `text` and read by `units?`.  In between it is a
decimal, which is rounded to twenty significant digits, so what is read back is the number itself
as long as it has no more of them.

There are two groups.

* The rounding.  `NearestMultiple` says what it owes to a number, on both sides of zero, and
  `nearestMultiple_rounded` that it pays it.  Up to twenty digits nothing is lost
  (`rounded_of_abs_lt`).  Both follow from what is said of decimals in general
  (`quotient_spec`).
* The text.  `IsDecimal` is the form of a text (`isDecimal_text`), and `units?_text` the round
  trip: whatever is written, the rounded number is read.
-/

namespace PredictionMarket.FixedPoint

open Text Decimal

/-! ## The rounding -/

/-- The integer `r` is the multiple of `unit` nearest to `v`, and of two that are equally near
the one farther from zero. -/
structure NearestMultiple (unit v r : Int) : Prop where
  /-- It is a multiple. -/
  dvd : unit ∣ r
  /-- No multiple is nearer. -/
  nearest : ∀ s, unit ∣ s → |v - r| ≤ |v - s|
  /-- No multiple that is as near is farther from zero. -/
  away : ∀ s, unit ∣ s → |v - s| = |v - r| → |s| ≤ |r|

/-- Integers on a grid of integers. -/
theorem nearestMultiple_of_nearestIn {unit v r : Int} (h : NearestIn unit v r) :
    NearestMultiple unit v r := by
  have hmultiple : ∀ {s}, unit ∣ s → ∃ k : ℤ, (s : ℚ) = k * unit := by
    rintro s ⟨k, rfl⟩
    exact ⟨k, by push_cast; ring⟩
  refine ⟨?_, ?_, ?_⟩
  · obtain ⟨k, hk⟩ := h.multiple
    exact ⟨k, by rw [mul_comm]; exact_mod_cast hk⟩
  · intro s hs
    obtain ⟨k, hk⟩ := hmultiple hs
    have hnear := h.nearest k
    rw [← hk] at hnear
    exact_mod_cast hnear
  · intro s hs htie
    obtain ⟨k, hk⟩ := hmultiple hs
    have haway := h.away k
    rw [← hk] at haway
    exact_mod_cast haway (by exact_mod_cast htie)

/-- The decimal of a number, counted in units of its ninth place. -/
def quotient (v : Int) : ℚ := div (Rat.ofInt v) (Rat.ofInt one) * Rat.ofInt (Nat.pow 10 9)

theorem ten_ne_zero : (10 : ℚ) ≠ 0 := by norm_num

theorem quotient_eq (v : Int) : quotient v = div v (10 ^ (9 : ℤ)) * 10 ^ (9 : ℤ) := by
  have hone : Rat.ofInt one = (10 : ℚ) ^ (9 : ℤ) := by norm_num [one]
  have hplaces : Rat.ofInt (Nat.pow 10 9) = (10 : ℚ) ^ (9 : ℤ) := by norm_num
  rw [quotient, hone, hplaces]
  rfl

/-- Counted in those units a decimal keeps twenty significant digits, too. -/
theorem quotient_spec {v : Int} (hv : v ≠ 0) :
    ∃ e : ℤ, (10 : ℚ) ^ e ≤ |(v : ℚ)| ∧ |(v : ℚ)| < 10 ^ (e + 1) ∧
      NearestIn (10 ^ (e + 1 - 20)) v (quotient v) := by
  have hpos : (0 : ℚ) < 10 ^ (9 : ℤ) := by positivity
  have hquotient : (v : ℚ) / 10 ^ (9 : ℤ) ≠ 0 := div_ne_zero (Int.cast_ne_zero.mpr hv) hpos.ne'
  obtain ⟨e, hlow, hhigh, hnear⟩ := div_spec hquotient
  rw [abs_div, abs_of_pos hpos] at hlow hhigh
  refine ⟨e + 9, ?_, ?_, ?_⟩
  · rwa [zpow_add₀ ten_ne_zero, ← le_div_iff₀ hpos]
  · rwa [add_right_comm, zpow_add₀ ten_ne_zero, ← div_lt_iff₀ hpos]
  · have hexponent : e + 9 + 1 - 20 = e + 1 - 20 + 9 := by ring
    have hstretched := hnear.stretch hpos
    rwa [div_mul_cancel₀ _ hpos.ne', ← zpow_add₀ ten_ne_zero, ← hexponent, ← quotient_eq]
      at hstretched

/-- The number with its magnitude rounded to the digits that a text keeps. -/
def rounded (v : Int) : Int := roundHalfAway (quotient v)

/-- A power of ten up to a number is no greater than one beyond it. -/
theorem exponent_lt {e e' : ℤ} {q : ℚ} (h : (10 : ℚ) ^ e ≤ q) (h' : q < 10 ^ e') : e < e' :=
  (zpow_lt_zpow_iff_right₀ (by norm_num)).mp (h.trans_lt h')

/-- A number of up to twenty digits is kept. -/
theorem rounded_of_abs_lt {v : Int} (h : |v| < 10 ^ 20) : rounded v = v := by
  rcases eq_or_ne v 0 with rfl | hv
  · have hzero : Rat.ofInt 0 = 0 := rfl
    rw [rounded, quotient, hzero, div_zero_left, zero_mul]
    exact roundHalfAway_intCast 0
  · obtain ⟨e, hlow, -, hnear⟩ := quotient_spec hv
    have hexponent : e < (20 : ℤ) := exponent_lt hlow (by exact_mod_cast h)
    obtain ⟨k, hk⟩ := Int.eq_ofNat_of_zero_le (by omega : 0 ≤ 19 - e)
    have hmultiple : (v : ℚ) = ((v * 10 ^ k : ℤ) : ℚ) * 10 ^ (e + 1 - 20) := by
      obtain rfl : e = 19 - k := by omega
      push_cast
      rw [mul_assoc, ← zpow_natCast, ← zpow_add₀ ten_ne_zero,
        show (k : ℤ) + (19 - k + 1 - 20) = 0 by ring, zpow_zero, mul_one]
    rw [rounded, hnear.eq_of_multiple hmultiple, roundHalfAway_intCast]

/-- A number of more digits is rounded to the place of the twentieth. -/
theorem nearestMultiple_rounded {v : Int} {d : Nat} (hd : 20 < d) (hlow : 10 ^ (d - 1) ≤ |v|)
    (hhigh : |v| < 10 ^ d) : NearestMultiple (10 ^ (d - 20)) v (rounded v) := by
  have hv : v ≠ 0 := by
    rintro rfl
    exact absurd hlow (by simp)
  obtain ⟨e, hlow', hhigh', hnear⟩ := quotient_spec hv
  have hle : e < (d : ℤ) := exponent_lt hlow' (by exact_mod_cast hhigh)
  have hge : ((d - 1 : ℕ) : ℤ) < e + 1 := exponent_lt (by exact_mod_cast hlow) hhigh'
  have hunit : (10 : ℚ) ^ (e + 1 - 20) = ((10 ^ (d - 20) : ℤ) : ℚ) := by
    rw [show e + 1 - 20 = ((d - 20 : ℕ) : ℤ) by omega, zpow_natCast]
    push_cast
    rfl
  rw [hunit] at hnear
  -- the unit is an integer, so what is nearest in it is not rounded again
  obtain ⟨k, hk⟩ := hnear.multiple
  have hinteger : quotient v = rounded v := by
    rw [rounded, hk, ← Int.cast_mul, roundHalfAway_intCast]
  rw [hinteger] at hnear
  exact nearestMultiple_of_nearestIn hnear

/-! ## The text -/

/-- A minus sign where there is one, a whole part without a superfluous zero, a point and nine
digits. -/
def IsDecimal (s : String) : Prop :=
  ∃ sign whole places : List Char, s = String.ofList (sign ++ whole ++ '.' :: places) ∧
    (sign = [] ∨ sign = ['-']) ∧
    IsNatural whole ∧ (whole.head? = some '0' → whole = ['0']) ∧
    IsNatural places ∧ places.length = 9

/-- The places behind the point are the last nine digits. -/
theorem places_lt (n : Nat) : n % 1000000000 < 10 ^ 9 := Nat.mod_lt n (by decide)

theorem isDecimal_toFixed (x : ℚ) : IsDecimal (toFixed 9 x) := by
  let n := (roundHalfAway (x * Rat.ofInt (Nat.pow 10 9))).natAbs
  refine ⟨if x < 0 then ['-'] else [], decimal (n / 1000000000), padded 9 (n % 1000000000), ?_, ?_,
    isNatural_decimal _, decimal_eq_of_head?_eq_zero, isNatural_padded _ _,
    length_padded (by decide) (places_lt _)⟩
  · rw [toFixed]
    split <;> rfl
  · split
    · exact .inr rfl
    · exact .inl rfl

theorem isDecimal_text (v : Int) : IsDecimal (text v) := isDecimal_toFixed _

/-- A text is divided at its point. -/
theorem unsignedUnits?_append {whole places : List Char} (hwhole : IsNatural whole)
    (hplaces : IsNatural places) (hlength : places.length = 9) :
    unsignedUnits? (whole ++ '.' :: places) = natural? (whole ++ places) := by
  have hdigits : ∀ c ∈ whole, decide (c ≠ '.') = true := by
    intro c hc
    rw [decide_eq_true_iff]
    rintro rfl
    exact absurd (hwhole.2 '.' hc) (by decide)
  have htake : (whole ++ '.' :: places).takeWhile (· ≠ '.') = whole := by
    rw [List.takeWhile_append_of_pos hdigits]
    simp
  have hdrop : (whole ++ '.' :: places).dropWhile (· ≠ '.') = '.' :: places := by
    rw [List.dropWhile_append_of_pos hdigits]
    simp
  rw [unsignedUnits?, htake, hdrop]
  exact if_pos ⟨hlength, hwhole, hplaces⟩

/-- What is written of a natural is read as the natural. -/
theorem unsignedUnits?_written (n : Nat) :
    unsignedUnits? (decimal (n / 1000000000) ++ '.' :: padded 9 (n % 1000000000)) = some n := by
  rw [unsignedUnits?_append (isNatural_decimal _) (isNatural_padded _ _)
      (length_padded (by decide) (places_lt n)),
    natural?_append_padded _ (by decide) (places_lt n)]
  congr 1
  omega

/-- A text that begins with a digit has no sign. -/
theorem units?_ofList {cs : List Char} (h : cs.head? ≠ some '-') :
    units? (String.ofList cs) = (unsignedUnits? cs).map fun (n : Nat) => (n : Int) := by
  rw [units?, String.toList_ofList]
  split
  · exact absurd rfl h
  · rfl

/-- The digits of a natural do not begin with a sign. -/
theorem head?_decimal_append_ne (n : Nat) (cs : List Char) :
    (decimal n ++ cs).head? ≠ some '-' := by
  obtain ⟨hne, hdigits⟩ := isNatural_decimal n
  rw [List.head?_append_of_ne_nil _ hne]
  intro hhead
  exact absurd (hdigits '-' (List.mem_of_mem_head? hhead)) (by decide)

/-- What is written of a decimal is read as its nearest count of units of the last place. -/
theorem units?_toFixed (x : ℚ) :
    units? (toFixed 9 x) = some (roundHalfAway (x * Rat.ofInt (Nat.pow 10 9))) := by
  have hread := unsignedUnits?_written (roundHalfAway (x * Rat.ofInt (Nat.pow 10 9))).natAbs
  have hplaces : (0 : ℚ) < Rat.ofInt (Nat.pow 10 9) := by norm_num
  rw [toFixed]
  split
  · have hsign := roundHalfAway_nonpos (mul_neg_of_neg_of_pos ‹x < 0› hplaces)
    rw [units?, String.toList_ofList]
    simp only
    rw [hread, Option.map_some, Int.ofNat_natAbs_of_nonpos hsign, neg_neg]
  · have hsign := roundHalfAway_nonneg (mul_nonneg (not_lt.mp ‹¬ x < 0›) hplaces.le)
    rw [units?_ofList (head?_decimal_append_ne _ _), hread, Option.map_some,
      Int.natAbs_of_nonneg hsign]

/-- What is written of a number is read as the number rounded. -/
theorem units?_text (v : Int) : units? (text v) = some (rounded v) := units?_toFixed _

theorem units?_text_of_abs_lt {v : Int} (h : |v| < 10 ^ 20) : units? (text v) = some v := by
  rw [units?_text, rounded_of_abs_lt h]

/-- The fraction that a text names. -/
def fraction? (s : String) : Option ℚ := (units? s).map fun u : Int => (u : ℚ) / 10 ^ 9

end PredictionMarket.FixedPoint
