import PredictionMarket.Number.Binary64
import PredictionMarket.Text.Blank
import PredictionMarket.Text.Digits

/-!
# Reading a number

A text names a number if it is, blanks at its ends aside,

* nothing, which is zero;
* an unsigned integer in base 16, 8 or 2 after `0x`, `0o` or `0b`;
* a decimal with an optional sign, point and exponent, or `Infinity`.

All else is `nan`.  The exact value is rounded once.
-/

namespace PredictionMarket.Number

/-- The value of a digit in a base up to 16. -/
def digitValue? (base : Nat) (c : Char) : Option Nat :=
  let value :=
    if '0' ≤ c ∧ c ≤ '9' then some (c.toNat - '0'.toNat)
    else if 'a' ≤ c ∧ c ≤ 'f' then some (c.toNat - 'a'.toNat + 10)
    else if 'A' ≤ c ∧ c ≤ 'F' then some (c.toNat - 'A'.toNat + 10)
    else none
  value.filter (· < base)

/-- The natural that the digits name in the base. -/
def naturalIn (base : Nat) (ds : List Nat) : Nat := ds.foldl (fun n d => base * n + d) 0

/-- One or more digits of the base. -/
def inBase (base : Nat) (cs : List Char) : Number :=
  match cs, cs.mapM (digitValue? base) with
  | _ :: _, some ds => nearest (Rat.ofInt (naturalIn base ds))
  | _, _ => nan

/-- The number nearest to `c * 10 ^ x`.  An exponent far outside the range of
floating point is answered without the power. -/
def ofDecimal (c : Nat) (x : Int) : Number :=
  let places : Int := (Text.decimal c).length
  if c = 0 then finite 0
  else if 400 < places + x then infinite false
  else if places + x < -400 then finite 0
  else nearest (mkRat (c * Nat.pow 10 x.toNat : Nat) (Nat.pow 10 (-x).toNat))

/-- The exponent after the mantissa: nothing, or `e` and an integer. -/
def exponent? : List Char → Option Int
  | [] => some 0
  | e :: rest =>
    if e = 'e' ∨ e = 'E' then
      match rest with
      | '-' :: ds => (Text.natural? ds).map fun (n : Nat) => -(n : Int)
      | '+' :: ds => (Text.natural? ds).map fun (n : Nat) => (n : Int)
      | ds => (Text.natural? ds).map fun (n : Nat) => (n : Int)
    else none

/-- A decimal without a sign. -/
def unsigned (cs : List Char) : Number :=
  let whole := cs.takeWhile Char.isDigit
  let afterWhole := cs.dropWhile Char.isDigit
  let (places, afterPlaces) := match afterWhole with
    | '.' :: rest => (rest.takeWhile Char.isDigit, rest.dropWhile Char.isDigit)
    | rest => ([], rest)
  match Text.natural? (whole ++ places), exponent? afterPlaces with
  | some c, some x => ofDecimal c (x - (places.length : Int))
  | _, _ => nan

/-- The number of the other sign. -/
def negate : Number → Number
  | finite q => finite (-q)
  | infinite negative => infinite (!negative)
  | nan => nan

/-- A decimal without a sign, or the word for infinity. -/
def unsignedOrInfinity (cs : List Char) : Number :=
  if cs = "Infinity".toList then infinite false else unsigned cs

/-- The number that a text names. -/
def ofText (s : String) : Number :=
  match Text.trim s.toList with
  | [] => finite 0
  | '-' :: rest => (unsignedOrInfinity rest).negate
  | '+' :: rest => unsignedOrInfinity rest
  | '0' :: mark :: rest =>
    if mark = 'x' ∨ mark = 'X' then inBase 16 rest
    else if mark = 'o' ∨ mark = 'O' then inBase 8 rest
    else if mark = 'b' ∨ mark = 'B' then inBase 2 rest
    else unsigned ('0' :: mark :: rest)
  | rest => unsignedOrInfinity rest

end PredictionMarket.Number
