import Mathlib
import PredictionMarket.Number.Binary64

/-!
# Rounding keeps the order

A sum of times is rounded before it is compared, so a comparison of exact times needs to
know what rounding does to their order.  `Number.nearest` rounds a size to a count of units,
and greater sizes have no lesser units.

* `roundHalfEven_mono` is the order among quotients counted in the same units.
* `Binary64.nearestSize_mono` is the order among all sizes.  Where the units differ, a power
  of two lies between the sizes that both of them count.
* `Number.Representable.le_nearest` is what comparisons use: no number is rounded to
  anything before a floating-point number that it had reached.  So a time does not go back
  when a duration is added (`Number.Floating.le_add`).
* `Number.lt_of_not_le` and `Number.ne_nan_of_lt` say what a failed comparison tells, and that
  is nothing where one side is `nan`.
* `Number.representable_natCast` says which naturals are not rounded at all.
-/

namespace PredictionMarket

/-! ## Rounding to integers -/

/-- Rounding does not go below the whole part of a quotient. -/
theorem le_roundHalfEven_of_le_div {n d k : Nat} (h : k ≤ n / d) : k ≤ roundHalfEven n d := by
  rw [roundHalfEven]
  split
  · exact h
  · split
    · omega
    · omega

/-- An integer up to `n / d` is no more than what `n / d` is rounded to. -/
theorem le_roundHalfEven {n d k : Nat} (hd : 0 < d) (h : k * d ≤ n) : k ≤ roundHalfEven n d :=
  le_roundHalfEven_of_le_div ((Nat.le_div_iff_mul_le hd).mpr h)

/-- Rounding does not go beyond the integer after the whole part. -/
theorem roundHalfEven_le_div_add_one (n d : Nat) : roundHalfEven n d ≤ n / d + 1 := by
  rw [roundHalfEven]
  split
  · omega
  · split
    · omega
    · omega

/-- An integer from `n / d` on is no less than what `n / d` is rounded to. -/
theorem roundHalfEven_le {n d k : Nat} (hd : 0 < d) (h : n ≤ k * d) : roundHalfEven n d ≤ k := by
  have hquotient : n / d ≤ k := Nat.div_le_of_le_mul (by rwa [Nat.mul_comm])
  rcases hquotient.lt_or_eq with hlt | heq
  · exact (roundHalfEven_le_div_add_one n d).trans hlt
  · have hrest : n % d = 0 := by
      have hsplit := Nat.div_add_mod n d
      rw [heq, Nat.mul_comm] at hsplit
      omega
    rw [roundHalfEven, hrest, if_pos (by omega)]
    exact hquotient

/-- Rounding to integers keeps the order of quotients. -/
theorem roundHalfEven_mono {n d n' d' : Nat} (hd : 0 < d) (hd' : 0 < d')
    (h : n * d' ≤ n' * d) : roundHalfEven n d ≤ roundHalfEven n' d' := by
  have hsplit := Nat.div_add_mod n d
  have hsplit' := Nat.div_add_mod n' d'
  have hquotient : n / d ≤ n' / d' := by
    rw [Nat.le_div_iff_mul_le hd']
    refine Nat.le_of_mul_le_mul_right ?_ hd
    calc n / d * d' * d = d * (n / d) * d' := by ring
      _ ≤ n * d' := Nat.mul_le_mul_right d' (by omega)
      _ ≤ n' * d := h
  rcases hquotient.lt_or_eq with hlt | heq
  · exact (roundHalfEven_le_div_add_one n d).trans (le_roundHalfEven_of_le_div hlt)
  · -- both lie between the same integers, so the remainders decide
    rw [← heq] at hsplit'
    have hrest : n % d * d' ≤ n' % d' * d := by
      have hsum : (d * (n / d) + n % d) * d' ≤ (d' * (n / d) + n' % d') * d := by
        rwa [hsplit, hsplit']
      linarith [hsum, mul_comm (d * d') (n / d)]
    have hhalf : d ≤ 2 * (n % d) → d' ≤ 2 * (n' % d') := by
      intro hle
      refine Nat.le_of_mul_le_mul_right ?_ hd
      calc d' * d ≤ 2 * (n % d) * d' := by rw [mul_comm d']; exact Nat.mul_le_mul_right d' hle
        _ = 2 * (n % d * d') := by ring
        _ ≤ 2 * (n' % d') * d := by linarith
    have hmore : d < 2 * (n % d) → d' < 2 * (n' % d') := by
      intro hlt
      refine Nat.lt_of_mul_lt_mul_right (a := d) ?_
      calc d' * d < 2 * (n % d) * d' := by rw [mul_comm d']; exact Nat.mul_lt_mul_of_pos_right hlt hd'
        _ = 2 * (n % d * d') := by ring
        _ ≤ 2 * (n' % d') * d := by linarith
    rw [roundHalfEven, roundHalfEven, ← heq]
    split_ifs <;> omega


namespace Binary64

/-! ## Units -/

/-- Numerator and denominator in units of `2 ^ u`, neither of which vanishes. -/
theorem inUnits_pos {n d : Nat} (hn : 0 < n) (hd : 0 < d) (u : Int) :
    0 < (inUnits n d u).1 ∧ 0 < (inUnits n d u).2 := by
  simp only [inUnits, Nat.shiftLeft_eq]
  exact ⟨Nat.mul_pos hn (Nat.two_pow_pos _), Nat.mul_pos hd (Nat.two_pow_pos _)⟩

/-- What is counted in units of `2 ^ u` is `n / d`. -/
theorem inUnits_div (n d : Nat) (u : Int) :
    ((inUnits n d u).1 : Rat) / (inUnits n d u).2 = (n : Rat) / d / 2 ^ u := by
  simp only [inUnits, Nat.shiftLeft_eq]
  push_cast
  rcases le_total 0 u with hu | hu
  · obtain ⟨k, rfl⟩ := Int.eq_ofNat_of_zero_le hu
    simp [div_div]
  · obtain ⟨k, hk⟩ := Int.eq_ofNat_of_zero_le (Int.neg_nonneg.mpr hu)
    obtain rfl : u = -(k : Int) := by omega
    simp [zpow_neg, div_mul_eq_mul_div]

theorem scale_eq (m : Nat) (u : Int) : scale m u = m * 2 ^ u := by
  rw [scale, Rat.mkRat_eq_div]
  simp only [Nat.shiftLeft_eq]
  rcases le_total 0 u with hu | hu
  · obtain ⟨k, rfl⟩ := Int.eq_ofNat_of_zero_le hu
    simp
  · obtain ⟨k, hk⟩ := Int.eq_ofNat_of_zero_le (Int.neg_nonneg.mpr hu)
    obtain rfl : u = -(k : Int) := by omega
    simp [zpow_neg, div_eq_mul_inv]

/-- A natural lies between two powers of two. -/
theorem log2_bounds {n : Nat} (hn : 0 < n) :
    (2 : Rat) ^ (n.log2 : Int) ≤ n ∧ (n : Rat) < 2 ^ ((n.log2 : Int) + 1) := by
  have hlow : 2 ^ n.log2 ≤ n := Nat.log2_self_le (by omega)
  have hhigh : n < 2 ^ (n.log2 + 1) := Nat.lt_log2_self
  constructor
  · exact_mod_cast hlow
  · exact_mod_cast hhigh

/-- The exponent of `n / d` is that of the greatest power of two up to it. -/
theorem floorLog2_bounds {n d : Nat} (hn : 0 < n) (hd : 0 < d) :
    (2 : Rat) ^ floorLog2 n d ≤ (n : Rat) / d ∧ (n : Rat) / d < 2 ^ (floorLog2 n d + 1) := by
  have hdpos : (0 : Rat) < d := by exact_mod_cast hd
  obtain ⟨hnlow, hnhigh⟩ := log2_bounds hn
  obtain ⟨hdlow, hdhigh⟩ := log2_bounds hd
  have hestimate : (inUnits n d (n.log2 - d.log2)).2 ≤ (inUnits n d (n.log2 - d.log2)).1 ↔
      (2 : Rat) ^ ((n.log2 : Int) - d.log2) ≤ (n : Rat) / d := by
    have hpos : (0 : Rat) < (inUnits n d (n.log2 - d.log2)).2 := by
      exact_mod_cast (inUnits_pos hn hd _).2
    rw [← one_le_div₀ (zpow_pos two_pos _), ← inUnits_div, one_le_div₀ hpos, Nat.cast_le]
  rw [floorLog2]
  simp only [hestimate]
  split
  · rename_i hle
    refine ⟨hle, ?_⟩
    rw [div_lt_iff₀ hdpos]
    calc (n : Rat) < 2 ^ ((n.log2 : Int) + 1) := hnhigh
      _ = 2 ^ ((n.log2 : Int) - d.log2 + 1) * 2 ^ (d.log2 : Int) := by
        rw [← zpow_add₀ two_ne_zero]; congr 1; ring
      _ ≤ 2 ^ ((n.log2 : Int) - d.log2 + 1) * d := by gcongr
  · rename_i hlt
    rw [sub_add_cancel]
    refine ⟨?_, not_le.mp hlt⟩
    rw [le_div_iff₀ hdpos]
    calc (2 : Rat) ^ ((n.log2 : Int) - d.log2 - 1) * d
        ≤ 2 ^ ((n.log2 : Int) - d.log2 - 1) * 2 ^ ((d.log2 : Int) + 1) := by gcongr
      _ = 2 ^ (n.log2 : Int) := by rw [← zpow_add₀ two_ne_zero]; congr 1; ring
      _ ≤ n := hnlow

/-- A greater quotient has no lesser exponent. -/
theorem floorLog2_mono {n d n' d' : Nat} (hn : 0 < n) (hd : 0 < d) (hn' : 0 < n') (hd' : 0 < d')
    (h : (n : Rat) / d ≤ (n' : Rat) / d') : floorLog2 n d ≤ floorLog2 n' d' := by
  have hless : (2 : Rat) ^ floorLog2 n d < 2 ^ (floorLog2 n' d' + 1) :=
    ((floorLog2_bounds hn hd).1.trans h).trans_lt (floorLog2_bounds hn' hd').2
  have := (zpow_lt_zpow_iff_right₀ one_lt_two).mp hless
  omega

/-! ## Rounding sizes -/

/-- A quotient is less than `2 ^ 53` of its units. -/
theorem div_lt_units {n d : Nat} (hn : 0 < n) (hd : 0 < d) :
    (n : Rat) / d < (2 ^ 53 : Nat) * 2 ^ unitExponent n d := by
  calc (n : Rat) / d < 2 ^ (floorLog2 n d + 1) := (floorLog2_bounds hn hd).2
    _ ≤ 2 ^ (53 + unitExponent n d) := by
      refine zpow_le_zpow_right₀ one_le_two ?_
      rw [unitExponent]
      omega
    _ = (2 ^ 53 : Nat) * 2 ^ unitExponent n d := by
      rw [zpow_add₀ two_ne_zero]
      norm_num

/-- A quotient is at least `2 ^ 52` of its units, where these are not the least ones. -/
theorem units_le_div {n d : Nat} (hn : 0 < n) (hd : 0 < d) (h : -1074 < unitExponent n d) :
    ((2 ^ 52 : Nat) : Rat) * 2 ^ unitExponent n d ≤ (n : Rat) / d := by
  calc ((2 ^ 52 : Nat) : Rat) * 2 ^ unitExponent n d = 2 ^ (52 + unitExponent n d) := by
        rw [zpow_add₀ two_ne_zero]
        norm_num
    _ ≤ 2 ^ floorLog2 n d := by
      refine zpow_le_zpow_right₀ one_le_two ?_
      rw [unitExponent] at h ⊢
      omega
    _ ≤ (n : Rat) / d := (floorLog2_bounds hn hd).1

theorem nearestSize_eq (n d : Nat) :
    nearestSize n d = roundHalfEven (inUnits n d (unitExponent n d)).1
      (inUnits n d (unitExponent n d)).2 * 2 ^ unitExponent n d :=
  scale_eq _ _

/-- A count of units up to the quotient is no more than what the quotient is rounded to. -/
theorem units_le_nearestSize {n d m : Nat} (hn : 0 < n) (hd : 0 < d)
    (h : (m : Rat) * 2 ^ unitExponent n d ≤ (n : Rat) / d) :
    (m : Rat) * 2 ^ unitExponent n d ≤ nearestSize n d := by
  have hpos := (inUnits_pos hn hd (unitExponent n d)).2
  rw [← le_div_iff₀ (zpow_pos two_pos _), ← inUnits_div, le_div_iff₀ (by exact_mod_cast hpos)] at h
  have hround := le_roundHalfEven hpos (by exact_mod_cast h)
  rw [nearestSize_eq]
  gcongr

/-- A count of units from the quotient on is no less than what the quotient is rounded to. -/
theorem nearestSize_le_units {n d m : Nat} (hn : 0 < n) (hd : 0 < d)
    (h : (n : Rat) / d ≤ (m : Rat) * 2 ^ unitExponent n d) :
    nearestSize n d ≤ (m : Rat) * 2 ^ unitExponent n d := by
  have hpos := (inUnits_pos hn hd (unitExponent n d)).2
  rw [← div_le_iff₀ (zpow_pos two_pos _), ← inUnits_div, div_le_iff₀ (by exact_mod_cast hpos)] at h
  have hround := roundHalfEven_le hpos (by exact_mod_cast h)
  rw [nearestSize_eq]
  gcongr

/-- Rounding keeps the order of sizes. -/
theorem nearestSize_mono {n d n' d' : Nat} (hn : 0 < n) (hd : 0 < d) (hn' : 0 < n') (hd' : 0 < d')
    (h : (n : Rat) / d ≤ (n' : Rat) / d') : nearestSize n d ≤ nearestSize n' d' := by
  have hunit : unitExponent n d ≤ unitExponent n' d' := by
    have hlog := floorLog2_mono hn hd hn' hd' h
    rw [unitExponent, unitExponent]
    omega
  rcases hunit.lt_or_eq with hlt | heq
  · -- a power of two lies between the two, and both units count it
    have hcoarse : -1074 < unitExponent n' d' := lt_of_le_of_lt (le_max_right _ _) hlt
    have hstep : (2 : Rat) ^ (unitExponent n d + 1) ≤ 2 ^ unitExponent n' d' :=
      zpow_le_zpow_right₀ one_le_two hlt
    calc nearestSize n d ≤ (2 ^ 53 : Nat) * 2 ^ unitExponent n d :=
          nearestSize_le_units hn hd (div_lt_units hn hd).le
      _ = (2 ^ 52 : Nat) * 2 ^ (unitExponent n d + 1) := by
          rw [zpow_add₀ two_ne_zero]
          ring
      _ ≤ (2 ^ 52 : Nat) * 2 ^ unitExponent n' d' := by gcongr
      _ ≤ nearestSize n' d' := units_le_nearestSize hn' hd' (units_le_div hn' hd' hcoarse)
  · obtain ⟨hnum, hden⟩ := inUnits_pos hn hd (unitExponent n' d')
    obtain ⟨hnum', hden'⟩ := inUnits_pos hn' hd' (unitExponent n' d')
    rw [nearestSize_eq, nearestSize_eq, heq]
    gcongr
    refine roundHalfEven_mono hden hden' ?_
    have hunits : ((inUnits n d (unitExponent n' d')).1 : Rat) / (inUnits n d (unitExponent n' d')).2 ≤
        (inUnits n' d' (unitExponent n' d')).1 / (inUnits n' d' (unitExponent n' d')).2 := by
      rw [inUnits_div, inUnits_div]
      gcongr
    rw [div_le_div_iff₀ (by exact_mod_cast hden) (by exact_mod_cast hden')] at hunits
    exact_mod_cast hunits

end Binary64


namespace Number

open Binary64

/-! ## Rounding numbers -/

/-- The size of a rational is that of its numerator over its denominator. -/
theorem natAbs_div_den (q : Rat) : (q.num.natAbs : Rat) / q.den = |q| := by
  rw [← Rat.num_div_den |q|, Rat.num_abs_eq_abs_num, Rat.den_abs_eq_den, Nat.cast_natAbs]

theorem nearestSize_nonneg (n d : Nat) : 0 ≤ nearestSize n d := by
  rw [nearestSize_eq]
  positivity

/-- Rounding keeps the order of rationals by size. -/
theorem nearestSize_le_of_abs_le {p q : Rat} (hp : p ≠ 0) (h : |p| ≤ |q|) :
    nearestSize p.num.natAbs p.den ≤ nearestSize q.num.natAbs q.den := by
  have hq : q ≠ 0 := by
    rintro rfl
    exact hp (abs_nonpos_iff.mp (by simpa using h))
  refine nearestSize_mono ?_ p.den_pos ?_ q.den_pos ?_
  · exact Int.natAbs_pos.mpr (Rat.num_ne_zero.mpr hp)
  · exact Int.natAbs_pos.mpr (Rat.num_ne_zero.mpr hq)
  · rw [natAbs_div_den, natAbs_div_den]
    exact h

/-- What a rational is rounded to, by its rounded size. -/
theorem nearest_of_ne_zero {q : Rat} (hq : q ≠ 0) :
    nearest q =
      if greatest < nearestSize q.num.natAbs q.den then infinite (decide (q < 0))
      else finite (if q < 0 then -nearestSize q.num.natAbs q.den
        else nearestSize q.num.natAbs q.den) := by
  rw [nearest, if_neg (Rat.num_ne_zero.mpr hq)]
  simp only [Rat.num_neg]

/-- A floating-point number other than zero is its own rounded size, and that is not too
great. -/
theorem Representable.nearestSize_eq {a : Rat} (h : Representable a) (ha : a ≠ 0) :
    nearestSize a.num.natAbs a.den = |a| ∧ |a| ≤ greatest := by
  rw [Representable, nearest_of_ne_zero ha] at h
  split at h
  · exact absurd h (by simp)
  rename_i hgreatest
  have hvalue := Number.finite.inj h
  have hsize : nearestSize a.num.natAbs a.den = |a| := by
    split at hvalue
    · rename_i hneg
      rw [abs_of_neg hneg]
      linarith
    · rename_i hneg
      rw [abs_of_nonneg (not_lt.mp hneg)]
      exact hvalue
  exact ⟨hsize, hsize ▸ not_lt.mp hgreatest⟩

/-- A rational from a floating-point number on is not rounded to anything before it. -/
theorem Representable.le_nearest {a x : Rat} (h : Representable a) (hle : a ≤ x) :
    finite a ≤ nearest x := by
  rcases lt_trichotomy x 0 with hx | rfl | hx
  · -- both are negative, and `x` is the lesser one by size
    have ha : a < 0 := hle.trans_lt hx
    obtain ⟨hsize, hgreatest⟩ := h.nearestSize_eq ha.ne
    have hbound : nearestSize x.num.natAbs x.den ≤ |a| := by
      rw [← hsize]
      refine nearestSize_le_of_abs_le hx.ne ?_
      rw [abs_of_neg hx, abs_of_neg ha]
      exact neg_le_neg hle
    rw [nearest_of_ne_zero hx.ne, if_neg (not_lt.mpr (hbound.trans hgreatest)), if_pos hx]
    rw [abs_of_neg ha] at hbound
    exact le_neg.mpr hbound
  · exact hle
  · rw [nearest_of_ne_zero hx.ne', if_neg hx.le.not_gt]
    split
    · exact decide_eq_false hx.le.not_gt
    rcases le_or_gt a 0 with ha | ha
    · exact ha.trans (nearestSize_nonneg _ _)
    · obtain ⟨hsize, -⟩ := h.nearestSize_eq ha.ne'
      calc a = nearestSize a.num.natAbs a.den := by rw [hsize, abs_of_pos ha]
        _ ≤ nearestSize x.num.natAbs x.den := by
          refine nearestSize_le_of_abs_le ha.ne' ?_
          rw [abs_of_pos ha, abs_of_pos hx]
          exact hle

/-! ## Comparisons -/

protected theorem le_trans {x y z : Number} (hxy : x ≤ y) (hyz : y ≤ z) : x ≤ z := by
  cases x with
  | nan => exact hxy
  | finite p =>
    cases y with
    | nan => exact absurd hxy id
    | finite q =>
      cases z with
      | nan => exact hyz
      | finite r => exact Rat.le_trans hxy hyz
      | infinite negative => exact hyz
    | infinite negative =>
      obtain rfl : negative = false := hxy
      cases z with
      | nan => exact hyz
      | finite r => exact absurd hyz Bool.false_ne_true
      | infinite negative => exact hyz.resolve_left Bool.false_ne_true
  | infinite negative =>
    cases y with
    | nan => exact absurd hxy id
    | finite q =>
      obtain rfl : negative = true := hxy
      cases z with
      | nan => exact hyz
      | finite r => rfl
      | infinite negative => exact .inl rfl
    | infinite negative' =>
      cases z with
      | nan => exact hyz
      | finite r =>
        obtain rfl : negative' = true := hyz
        exact hxy.resolve_right (by simp)
      | infinite negative'' =>
        rcases hxy with h | rfl
        · exact .inl h
        · exact .inr (hyz.resolve_left Bool.false_ne_true)

/-- Of two numbers that are not `nan` one comes before the other, or they are equal. -/
theorem lt_of_not_le {x y : Number} (h : ¬ y ≤ x) (hx : x ≠ nan) (hy : y ≠ nan) : x < y := by
  cases x with
  | nan => exact absurd rfl hx
  | finite p =>
    cases y with
    | nan => exact absurd rfl hy
    | finite q => exact Rat.not_le.mp h
    | infinite negative => exact Bool.eq_false_of_not_eq_true h
  | infinite negative =>
    cases y with
    | nan => exact absurd rfl hy
    | finite q => exact Bool.eq_true_of_not_eq_false h
    | infinite negative' =>
      obtain ⟨hy', hx'⟩ := not_or.mp h
      exact ⟨Bool.eq_true_of_not_eq_false hx', Bool.eq_false_of_not_eq_true hy'⟩

theorem ne_nan_of_le {x y : Number} (h : x ≤ y) : y ≠ nan := by
  rintro rfl
  cases x <;> exact h

/-- Nothing comes before or after `nan`. -/
theorem ne_nan_of_lt {x y : Number} (h : x < y) : x ≠ nan ∧ y ≠ nan := by
  refine ⟨?_, ?_⟩
  · rintro rfl
    exact h
  · rintro rfl
    cases x <;> exact h

/-- A floating-point number does not go back when a natural is added. -/
theorem Floating.le_add {x : Number} (h : x.Floating) (hx : x ≠ nan) (n : Nat) :
    x ≤ x + ofInt n := by
  cases x with
  | nan => exact absurd rfl hx
  | finite a =>
    have hn : 0 ≤ Rat.ofInt n := by
      rw [Rat.ofInt_eq_cast]
      exact_mod_cast n.zero_le
    exact Representable.le_nearest h (le_add_of_nonneg_right hn)
  | infinite negative => exact negative.eq_false_or_eq_true

/-! ## Integers -/

/-- A size that its units measure exactly is not changed. -/
theorem nearestSize_of_units {n d m : Nat} (hn : 0 < n) (hd : 0 < d)
    (h : (m : Rat) * 2 ^ unitExponent n d = (n : Rat) / d) : nearestSize n d = (n : Rat) / d := by
  apply le_antisymm
  · rw [← h]
    exact nearestSize_le_units hn hd h.ge
  · rw [← h]
    exact units_le_nearestSize hn hd h.le

/-- The unit of a natural below `2 ^ 53` is one or less. -/
theorem unitExponent_nonpos {n : Nat} (hn : 0 < n) (hlt : n < 2 ^ 53) : unitExponent n 1 ≤ 0 := by
  have hlow := (floorLog2_bounds hn one_pos).1
  rw [Nat.cast_one, div_one] at hlow
  have hpow : (2 : Rat) ^ floorLog2 n 1 < 2 ^ (53 : Int) :=
    hlow.trans_lt (by exact_mod_cast hlt)
  have := (zpow_lt_zpow_iff_right₀ one_lt_two).mp hpow
  rw [unitExponent]
  omega

/-- A natural below `2 ^ 53` is its own rounded size. -/
theorem nearestSize_natCast {n : Nat} (hn : 0 < n) (hlt : n < 2 ^ 53) : nearestSize n 1 = n := by
  obtain ⟨k, hk⟩ := Int.eq_ofNat_of_zero_le (Int.neg_nonneg.mpr (unitExponent_nonpos hn hlt))
  have hunit : unitExponent n 1 = -(k : Int) := by omega
  have hunits : ((n * 2 ^ k : Nat) : Rat) * 2 ^ unitExponent n 1 = (n : Rat) / (1 : Nat) := by
    rw [hunit]
    push_cast
    simp [zpow_neg]
  rw [nearestSize_of_units hn one_pos hunits, Nat.cast_one, div_one]

/-- The naturals up to `2 ^ 53` are floating-point numbers. -/
theorem representable_natCast {n : Nat} (h : n ≤ 2 ^ 53) : Representable (n : Int) := by
  have hlast : Representable ((2 ^ 53 : Nat) : Int) := by decide +kernel
  rcases Nat.eq_zero_or_pos n with rfl | hn
  · rfl
  rcases h.eq_or_lt with rfl | hlt
  · exact hlast
  have hpos : (0 : Rat) < (n : Int) := by exact_mod_cast hn
  have hsize : nearestSize ((n : Int) : Rat).num.natAbs ((n : Int) : Rat).den = (n : Int) := by
    exact_mod_cast nearestSize_natCast hn hlt
  have hgreatest : ((n : Int) : Rat) ≤ greatest := by
    have hle : ((n : Int) : Rat) ≤ |((2 ^ 53 : Nat) : Int)| := by exact_mod_cast h
    exact hle.trans (hlast.nearestSize_eq (by norm_num)).2
  rw [Representable, nearest_of_ne_zero hpos.ne', hsize, if_neg (not_lt.mpr hgreatest),
    if_neg (not_lt.mpr hpos.le)]

end Number

end PredictionMarket
