/-!
# Decimal digits

`decimal` writes a natural in ASCII digits and `natural?` reads a run of them,
leading zeros included.  Reading what was written gives the number back:
`natural?_decimal`.
-/

namespace PredictionMarket.Text

/-- The decimal digits of a natural, without leading zeros. -/
def decimal (n : Nat) : List Char := Nat.toDigits 10 n

/-- The digits of an integer, after a minus sign where it is negative. -/
def integer (z : Int) : String :=
  String.ofList (if z < 0 then '-' :: decimal z.natAbs else decimal z.natAbs)

/-- A run of one or more ASCII digits and of nothing else. -/
def IsNatural (cs : List Char) : Prop := cs ≠ [] ∧ ∀ c ∈ cs, c.isDigit

instance (cs : List Char) : Decidable (IsNatural cs) :=
  decidable_of_iff (cs ≠ [] ∧ cs.all Char.isDigit) (by rw [IsNatural, List.all_eq_true])

/-- The number that a run of ASCII digits names. -/
def natural? (cs : List Char) : Option Nat :=
  if IsNatural cs then some (Nat.ofDigitChars 10 cs 0) else none

theorem isNatural_decimal (n : Nat) : IsNatural (decimal n) :=
  ⟨List.length_pos_iff.mp Nat.length_toDigits_pos,
    fun _ hc => Nat.isDigit_of_mem_toDigits (by decide) (by decide) hc⟩

theorem natural?_decimal (n : Nat) : natural? (decimal n) = some n := by
  rw [natural?, if_pos (isNatural_decimal n), decimal, Nat.ofDigitChars_toDigits (by decide) (by decide)]

theorem natural?_eq_none_iff {cs : List Char} : natural? cs = none ↔ ¬ IsNatural cs := by
  by_cases h : IsNatural cs <;> simp [natural?, h]

/-- The digits of a natural behind as many zeros as make up `width` places. -/
def padded (width n : Nat) : List Char :=
  List.replicate (width - (decimal n).length) '0' ++ decimal n

end PredictionMarket.Text
