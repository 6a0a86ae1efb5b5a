import PredictionMarket.Number.Basic

/-!
# Rounding to binary floating point

A finite number of 64 bits is an integer below `2 ^ 53` in size times a power of
two from `2 ^ -1074` up to `2 ^ 971`.  `Number.nearest` rounds a rational to the
nearest one and a tie to the even integer.  Beyond the greatest one it answers
the infinity of that side.
-/

namespace PredictionMarket

/-- The integer nearest to `n / d`, and the even one of two. -/
def roundHalfEven (n d : Nat) : Nat :=
  let quotient := n / d
  let remainder := n % d
  if 2 * remainder < d then quotient
  else if d < 2 * remainder then quotient + 1
  else quotient + quotient % 2

/-- Rounding moves `n / d` by one half at most. -/
theorem roundHalfEven_near (n : Nat) {d : Nat} (hd : 0 < d) :
    2 * (roundHalfEven n d * d) ≤ 2 * n + d ∧ 2 * n ≤ 2 * (roundHalfEven n d * d) + d := by
  have hsplit := Nat.div_add_mod n d
  have hcomm : d * (n / d) = n / d * d := Nat.mul_comm d (n / d)
  have hless := Nat.mod_lt n hd
  have hnext : (n / d + 1) * d = n / d * d + d := Nat.succ_mul (n / d) d
  rw [roundHalfEven]
  split
  · omega
  · split
    · omega
    · rcases Nat.mod_two_eq_zero_or_one (n / d) with heven | hodd
      · rw [heven, Nat.add_zero]
        omega
      · rw [hodd]
        omega

namespace Binary64

/-- Numerator and denominator of `n / d` counted in units of `2 ^ u`. -/
def inUnits (n d : Nat) (u : Int) : Nat × Nat := (n <<< (-u).toNat, d <<< u.toNat)

/-- The exponent of the greatest power of two up to `n / d`, both positive. -/
def floorLog2 (n d : Nat) : Int :=
  let estimate : Int := (Nat.log2 n : Int) - (Nat.log2 d : Int)
  let (a, b) := inUnits n d estimate
  if b ≤ a then estimate else estimate - 1

/-- The exponent of the unit in which `n / d` is rounded: it leaves 53 bits
before the point, and is never below the least exponent. -/
def unitExponent (n d : Nat) : Int := max (floorLog2 n d - 52) (-1074)

/-- The rational `m * 2 ^ u`. -/
def scale (m : Nat) (u : Int) : Rat := mkRat (m <<< u.toNat : Nat) (1 <<< (-u).toNat)

/-- The greatest finite number. -/
def greatest : Rat := scale 9007199254740991 971

/-- The number nearest to `n / d` by size, both positive; one that is too great
is not held back. -/
def nearestSize (n d : Nat) : Rat :=
  let u := unitExponent n d
  let (a, b) := inUnits n d u
  scale (roundHalfEven a b) u

end Binary64

namespace Number

/-- The floating-point number nearest to a rational. -/
def nearest (q : Rat) : Number :=
  if q.num = 0 then finite 0
  else
    let size := Binary64.nearestSize q.num.natAbs q.den
    if Binary64.greatest < size then infinite (q.num < 0)
    else finite (if q.num < 0 then -size else size)

/-- The sum of two numbers as floating point gives it: the exact sum of finite
ones is rounded, and infinities of both signs have none. -/
def sum : Number → Number → Number
  | nan, _ => nan
  | _, nan => nan
  | finite a, finite b => nearest (a + b)
  | finite _, infinite negative => infinite negative
  | infinite negative, finite _ => infinite negative
  | infinite negative, infinite negative' =>
    if negative = negative' then infinite negative else nan

instance : Add Number := ⟨sum⟩

/-- The rational is a floating-point number. -/
def Representable (q : Rat) : Prop := nearest q = finite q

instance (q : Rat) : Decidable (Representable q) := inferInstanceAs (Decidable (_ = _))

/-- The number is one that floating point has. -/
def Floating : Number → Prop
  | finite q => Representable q
  | infinite _ => True
  | nan => True

instance (x : Number) : Decidable x.Floating :=
  match x with
  | finite q => inferInstanceAs (Decidable (Representable q))
  | infinite _ | nan => inferInstanceAs (Decidable True)

end Number

end PredictionMarket
