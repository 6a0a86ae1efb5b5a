import PredictionMarket.Text.Ranges
import PredictionMarket.Http.Host.Folding.Barred
import PredictionMarket.Http.Host.Folding.Changed
import PredictionMarket.Http.Host.Folding.Plain

/-!
# Folding

Before a domain is looked at, capitals become small, some characters are left out and
others stand for plain text: `folded?`.  A character that stands for others beyond
ASCII only is left as it is, because the classes of characters in a domain hold it
beside them.  Only a label that spells characters is held to those that stand for
themselves: `isKept`.
-/

namespace PredictionMarket.Http.Host

/-- The character is one of ASCII. -/
def isAscii (c : Char) : Bool := c.toNat < 0x80

/-- The codes that are left out. -/
def ignored : List (Nat × Nat) :=
  [(0xAD, 0xAD), (0x34F, 0x34F), (0x180B, 0x180F), (0x200B, 0x200B), (0x2060, 0x2064),
    (0xFE00, 0xFE0F), (0xFEFF, 0xFEFF), (0x1BCA0, 0x1BCA3), (0xE0100, 0xE01EF)]

/-- What a character stands for in a domain, unless it must not stand there. -/
def folded? (c : Char) : Option (List Char) :=
  let n := c.toNat
  if isAscii c then some [c.toLower]
  else if Text.inRanges barred n then none
  else if Text.inRanges ignored n then some []
  else some ((plainText? n).getD [c])

/-- The character stands for itself in a domain. -/
def isKept (c : Char) : Bool := folded? c == some [c] && !isChanged c.toNat

end PredictionMarket.Http.Host
