/-!
# The numbers that clients and settings speak of

Outcome counts, outcome indices and times are binary floating-point numbers.  A
finite one is an exact rational here.  The sign of zero is dropped, as no answer
shows it.  `whole?` finds the integer that a number is, where it is one.

The order is that of floating point.  Nothing comes before or after `nan`, not
even `nan` itself, so `¬ y ≤ x` does not give `x < y`.
-/

namespace PredictionMarket

/-- A floating-point number by its value. -/
inductive Number where
  /-- A finite number. -/
  | finite (value : Rat)
  /-- An infinity, the one below all numbers or the one above them. -/
  | infinite (negative : Bool)
  /-- The result that is not a number. -/
  | nan
deriving DecidableEq, Repr

namespace Number

/-- The number that an integer is, without rounding. -/
def ofInt (z : Int) : Number := finite (Rat.ofInt z)

instance (n : Nat) : OfNat Number n := ⟨ofInt n⟩

/-- The integer that a number is, where it is one. -/
def whole? : Number → Option Int
  | finite q => if q.den = 1 then some q.num else none
  | infinite _ => none
  | nan => none

@[simp] theorem whole?_ofInt (z : Int) : (ofInt z).whole? = some z := rfl

theorem eq_ofInt_of_whole? {x : Number} {z : Int} (h : x.whole? = some z) : x = ofInt z := by
  cases x with
  | finite q =>
    simp only [whole?] at h
    split at h
    · rename_i hden
      obtain rfl := Option.some.inj h
      exact congrArg finite (Rat.ext rfl hden)
    · exact absurd h (by simp)
  | infinite | nan => exact absurd h (by simp [whole?])

theorem ofInt_injective {z z' : Int} (h : ofInt z = ofInt z') : z = z' :=
  congrArg Rat.num (finite.inj h)

/-! ## Order -/

/-- The first number is the second one or comes before it. -/
def Le : Number → Number → Prop
  | nan, _ => False
  | _, nan => False
  | finite p, finite q => p ≤ q
  | finite _, infinite negative => negative = false
  | infinite negative, finite _ => negative = true
  | infinite negative, infinite negative' => negative = true ∨ negative' = false

/-- The first number comes before the second one. -/
def Lt : Number → Number → Prop
  | nan, _ => False
  | _, nan => False
  | finite p, finite q => p < q
  | finite _, infinite negative => negative = false
  | infinite negative, finite _ => negative = true
  | infinite negative, infinite negative' => negative = true ∧ negative' = false

instance : LE Number := ⟨Le⟩

instance : LT Number := ⟨Lt⟩

instance (x y : Number) : Decidable (x ≤ y) :=
  match x, y with
  | nan, _ => inferInstanceAs (Decidable False)
  | finite _, nan | infinite _, nan => inferInstanceAs (Decidable False)
  | finite p, finite q => inferInstanceAs (Decidable (p ≤ q))
  | finite _, infinite negative => inferInstanceAs (Decidable (negative = false))
  | infinite negative, finite _ => inferInstanceAs (Decidable (negative = true))
  | infinite negative, infinite negative' =>
    inferInstanceAs (Decidable (negative = true ∨ negative' = false))

instance (x y : Number) : Decidable (x < y) :=
  match x, y with
  | nan, _ => inferInstanceAs (Decidable False)
  | finite _, nan | infinite _, nan => inferInstanceAs (Decidable False)
  | finite p, finite q => inferInstanceAs (Decidable (p < q))
  | finite _, infinite negative => inferInstanceAs (Decidable (negative = false))
  | infinite negative, finite _ => inferInstanceAs (Decidable (negative = true))
  | infinite negative, infinite negative' =>
    inferInstanceAs (Decidable (negative = true ∧ negative' = false))

end Number

end PredictionMarket
