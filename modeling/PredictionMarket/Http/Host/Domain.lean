import PredictionMarket.Http.Host.Address
import PredictionMarket.Http.Host.Composition
import PredictionMarket.Http.Host.Direction
import PredictionMarket.Http.Host.Folding
import PredictionMarket.Http.Host.Joiner
import PredictionMarket.Http.Host.Spelling

/-!
# Domains

A domain has labels between points.  It is folded and composed before it is looked at.
A label of ASCII alone may be anything without the signs that divide a target.  A
label beyond ASCII, be it written or spelled, has to be in order.
-/

namespace PredictionMarket.Http.Host

/-- A label beyond ASCII is in order: it does not begin with a mark, and its first
joiner is in its place or, where it has none, it is written in one direction. -/
def isInOrder (label : List Char) : Bool :=
  !label.head?.any isMark && (joins? label).getD (goesOneWay label)

/-- The text behind `xn--` spells a label in order beyond ASCII, which is composed, of
characters that stand for themselves.  What it spells does not spell a label again. -/
def isSpelling (text : List Char) : Bool :=
  text.all isAscii && text.take 4 ≠ "xn--".toList &&
    match spelled? text with
    | some label =>
      !label.all isAscii && label.all isKept && composed label == label && isInOrder label
    | none => false

/-- The text is a label of a folded domain. -/
def isLabel : List Char → Bool
  | 'x' :: 'n' :: '-' :: '-' :: text => isSpelling text
  | label => label.all isAscii || isInOrder label

/-- The character of ASCII must not stand in a domain. -/
def isForbidden (c : Char) : Bool :=
  c ≤ ' ' || c.toNat == 0x7F ||
    ['#', '%', '/', ':', '<', '>', '?', '@', '[', '\\', ']', '^', '|'].contains c

/-- The text is a domain, or an address of version 4. -/
def isDomain (cs : List Char) : Bool :=
  match cs.mapM folded? with
  | none => false
  | some folds =>
    let folded := folds.flatten
    let name := if folded.all isAscii then folded else composed folded
    !name.isEmpty && !name.any isForbidden && (name.splitOn '.').all isLabel &&
      (!endsInNumber name || isAddress4 name)

end PredictionMarket.Http.Host
