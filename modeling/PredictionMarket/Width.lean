import PredictionMarket.Error

/-!
# Integer widths

The amounts of a market fit machine integers, while the arithmetic here is on
unbounded integers.  An operation of a `Width` computes the exact result and
then asks whether it fits; a result that does not fit is an overflow, and so is
a division by zero.
-/

namespace PredictionMarket

/-- A range of machine integers. -/
inductive Width where
  /-- The naturals below `2 ^ 64`. -/
  | u64
  /-- The naturals below `2 ^ 128`. -/
  | u128
  /-- The integers from `-2 ^ 127` up to `2 ^ 127`, the upper end left out. -/
  | i128
deriving DecidableEq, Repr

namespace Width

/-- The least integer of the width. -/
def least : Width → Int
  | u64 => 0
  | u128 => 0
  | i128 => -170141183460469231731687303715884105728

/-- The greatest integer of the width. -/
def greatest : Width → Int
  | u64 => 18446744073709551615
  | u128 => 340282366920938463463374607431768211455
  | i128 => 170141183460469231731687303715884105727

/-- The integer lies within the width, both ends included. -/
def Fits (w : Width) (v : Int) : Prop := w.least ≤ v ∧ v ≤ w.greatest

instance (w : Width) (v : Int) : Decidable (w.Fits v) :=
  inferInstanceAs (Decidable (_ ∧ _))

/-- The value itself where it fits, and an overflow where it does not. -/
def confine (w : Width) (v : Int) : Except MarketError Int :=
  if w.Fits v then .ok v else .error .mathOverflow

/-- The sum, where it fits. -/
def add (w : Width) (a b : Int) : Except MarketError Int := w.confine (a + b)

/-- The difference, where it fits. -/
def sub (w : Width) (a b : Int) : Except MarketError Int := w.confine (a - b)

/-- The product, where it fits. -/
def mul (w : Width) (a b : Int) : Except MarketError Int := w.confine (a * b)

/-- The quotient rounded toward zero, where there is one and it fits. -/
def div (w : Width) (a b : Int) : Except MarketError Int :=
  if b = 0 then .error .mathOverflow else w.confine (a.tdiv b)

theorem confine_of_fits {w : Width} {v : Int} (h : w.Fits v) : w.confine v = .ok v := by
  simp [confine, h]

theorem confine_of_not_fits {w : Width} {v : Int} (h : ¬ w.Fits v) :
    w.confine v = .error .mathOverflow := by
  simp [confine, h]

theorem confine_eq_ok_iff {w : Width} {v r : Int} :
    w.confine v = .ok r ↔ w.Fits v ∧ r = v := by
  by_cases h : w.Fits v
  · simp [confine, h, eq_comm]
  · simp [confine, h]

theorem add_eq_ok_iff {w : Width} {a b r : Int} :
    w.add a b = .ok r ↔ w.Fits (a + b) ∧ r = a + b :=
  confine_eq_ok_iff

theorem sub_eq_ok_iff {w : Width} {a b r : Int} :
    w.sub a b = .ok r ↔ w.Fits (a - b) ∧ r = a - b :=
  confine_eq_ok_iff

theorem mul_eq_ok_iff {w : Width} {a b r : Int} :
    w.mul a b = .ok r ↔ w.Fits (a * b) ∧ r = a * b :=
  confine_eq_ok_iff

theorem div_eq_ok_iff {w : Width} {a b r : Int} :
    w.div a b = .ok r ↔ b ≠ 0 ∧ w.Fits (a.tdiv b) ∧ r = a.tdiv b := by
  by_cases hb : b = 0
  · simp [div, hb]
  · rw [div, if_neg hb, confine_eq_ok_iff]
    simp [hb]

end Width

end PredictionMarket
