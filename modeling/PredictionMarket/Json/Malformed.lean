import PredictionMarket.Text.Digits
import PredictionMarket.Text.Units

/-!
# Texts that are no JSON

`Malformed` says why a text is no JSON value, and by what was still to be read it
says where.  The message shows the unit of sixteen bits that has no place, with up
to `contextUnits` units of the text on either side.  A character that takes two
units can be cut in half by it.
-/

namespace PredictionMarket.Json

/-- Why a text is no JSON value. -/
inductive Malformed where
  /-- The text ends too early. -/
  | atEnd
  /-- The text that is left begins with a character that has no place here. -/
  | unexpected (rest : List Char)
  /-- The text that is left follows a minus sign and does not begin with a digit. -/
  | noDigits (rest : List Char)
deriving DecidableEq, Repr

namespace Malformed

/-- Nothing can be read of the text that is left. -/
def ofRest (rest : List Char) : Malformed := if rest.isEmpty then atEnd else unexpected rest

/-- How many units of context a message shows on either side. -/
def contextUnits : Nat := 10

/-- The texts that are named without any context: values that look like JSON and
are none. -/
def lookalikes : List String := ["NaN", "Infinity", "undefined"]

/-- The units of a string. -/
def unitsOf (s : String) : List Symbol := Text.units s.toList

/-- Units between quotes, as they are. -/
def between (us : List Symbol) : List Symbol := unitsOf "\"" ++ us ++ unitsOf "\""

/-- The part of the text around a position, with dots where it is cut. -/
def context (before rest : List Symbol) : List Symbol :=
  let left := before.drop (before.length - contextUnits)
  let right := rest.take contextUnits
  let dots := unitsOf "..."
  if before.length + rest.length ≤ 2 * contextUnits then between (before ++ rest)
  else if before.length < contextUnits then between (before ++ right) ++ dots
  else if contextUnits < rest.length then dots ++ between (left ++ right) ++ dots
  else dots ++ between (left ++ rest)

/-- The position behind `before`, alone and by line and column. -/
def position (before : List Char) : String :=
  let lines := before.splitOn '\n'
  let column := (Text.units (lines.getLastD [])).length + 1
  "position " ++ String.ofList (Text.decimal (Text.units before).length) ++
    " (line " ++ String.ofList (Text.decimal lines.length) ++
    " column " ++ String.ofList (Text.decimal column) ++ ")"

/-- What is said of a text that is no JSON value. -/
def message (source : String) : Malformed → Text
  | atEnd => Text.ofString "Unexpected end of JSON input"
  | unexpected rest =>
    if source ∈ lookalikes then Text.ofString ("\"" ++ source ++ "\" is not valid JSON")
    else
      let before := source.toList.take (source.toList.length - rest.length)
      let left := Text.units rest
      Text.ofUnits (unitsOf "Unexpected token '" ++ left.take 1 ++ unitsOf "', " ++
        context (Text.units before) left ++ unitsOf " is not valid JSON")
  | noDigits rest =>
    let before := source.toList.take (source.toList.length - rest.length)
    Text.ofString ("No number after minus sign in JSON at " ++ position before)

end Malformed

end PredictionMarket.Json
