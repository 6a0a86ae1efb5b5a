import PredictionMarket.Number.Shortest
import PredictionMarket.Text.Digits

/-!
# The text of a number

A number is written in its shortest digits.  Sizes from `10 ^ -6` up to `10 ^ 21`,
the upper end left out, are written with all their places, and others with one
digit before the point and a signed exponent.
-/

namespace PredictionMarket.Number

/-- The text of the digits `ds`, the point after the first `point` of them.
`point` may lie before the first or behind the last digit. -/
def layOut (ds : List Char) (point : Int) : List Char :=
  let k : Int := ds.length
  if k ≤ point ∧ point ≤ 21 then ds ++ List.replicate (point - k).toNat '0'
  else if 0 < point ∧ point ≤ 21 then
    ds.take point.toNat ++ '.' :: ds.drop point.toNat
  else if -6 < point ∧ point ≤ 0 then
    '0' :: '.' :: List.replicate (-point).toNat '0' ++ ds
  else
    let exponent := point - 1
    let sign := if exponent < 0 then '-' else '+'
    let mantissa := match ds with
      | [] => []
      | [d] => [d]
      | d :: rest => d :: '.' :: rest
    mantissa ++ 'e' :: sign :: Text.decimal exponent.natAbs

/-- The text of a positive rational that is a floating-point number. -/
def positiveText (q : Rat) : List Char :=
  let (digits, exponent) := shortest q
  let written := Text.decimal digits
  layOut ((written.reverse.dropWhile (· = '0')).reverse) (written.length + exponent)

/-- The text of a number. -/
def text : Number → String
  | nan => "NaN"
  | infinite negative => if negative then "-Infinity" else "Infinity"
  | finite q =>
    if q.num = 0 then "0"
    else if q.num < 0 then String.ofList ('-' :: positiveText (-q))
    else String.ofList (positiveText q)

end PredictionMarket.Number
