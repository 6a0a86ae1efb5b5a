import PredictionMarket.Settings

/-!
# Origins in answers

Every answer names the origin that is welcome in a header, if there is a single
one.  It cannot do so where that origin is empty, or where it has a character that
must not stand in a header.
-/

namespace PredictionMarket

/-- Why no answer can name the origin that is welcome. -/
inductive OriginFault where
  /-- The origin is empty. -/
  | blank
  /-- The origin has a character that must not stand in a header. -/
  | illegal
deriving DecidableEq, Repr

/-- The character may stand in a header: a tab, or a character of one byte that is
no control of ASCII. -/
def isHeaderChar (c : Char) : Bool :=
  let n := c.toNat
  n == 9 || (32 ≤ n && n ≤ 126) || (128 ≤ n && n ≤ 255)

/-- What is wrong with the origins as far as answers go. -/
def Origins.fault? : Origins → Option OriginFault
  | any | several _ => none
  | one origin =>
    if origin.isEmpty then some .blank
    else if origin.toList.all isHeaderChar then none
    else some .illegal

end PredictionMarket
