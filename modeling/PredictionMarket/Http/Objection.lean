import PredictionMarket.Http.Request
import PredictionMarket.Json.Order

/-!
# Objections to bodies

A body is refused unread if its text takes more than `maxBodyBytes` bytes.  It is
refused as well if one of its objects has a field `__proto__`, or a field
`constructor` whose value is an object with a field `prototype`.  The value of a
field `constructor` has to be there for that, so `null` is refused as well.

The objects of a body are looked at by depth, the outermost first, and at one depth
in the order in which their fields are gone through.  The first objection is
reported.
-/

namespace PredictionMarket.Http

/-- Why a body is refused unread. -/
inductive Objection where
  /-- The text of the body is too long. -/
  | tooLarge
  /-- An object has a field with a reserved name. -/
  | reservedName
  /-- The value of a field `constructor` is `null`. -/
  | nullConstructor
deriving DecidableEq, Repr

namespace Objection

/-- The sentence that describes an objection. -/
def message : Objection → String
  | tooLarge => "Request body is too large"
  | reservedName => "Object contains forbidden prototype property"
  | nullConstructor => "Cannot convert undefined or null to object"

/-- The objection to the fields of one object. -/
def ofFields? (fields : List (Text × Json)) : Option Objection :=
  if (Json.field? fields "__proto__").isSome then some reservedName
  else
    match Json.field? fields "constructor" with
    | some .null => some nullConstructor
    | some (.object inner) =>
      if (Json.field? inner "prototype").isSome then some reservedName else none
    | _ => none

/-- Objects by their depth, the outermost first. -/
abbrev Levels : Type := List (List (List (Text × Json)))

/-- Joins two sequences of levels, level by level. -/
def merge : Levels → Levels → Levels
  | [], bs => bs
  | as, [] => as
  | a :: as, b :: bs => (a ++ b) :: merge as bs

mutual

/-- The objects within a value by depth.  A sequence is a level without an object
of its own. -/
def levels : Json → Levels
  | .object fields =>
    [fields] :: ((Json.enumerated (levelsOfFields fields)).map Prod.snd).foldr merge []
  | .array items => [] :: (levelsOfItems items).foldr merge []
  | .null | .bool _ | .number _ | .text _ => []

/-- The objects within each item of a sequence. -/
def levelsOfItems : List Json → List Levels
  | [] => []
  | item :: items => levels item :: levelsOfItems items

/-- The objects within the value of each field. -/
def levelsOfFields : List (Text × Json) → List (Text × Levels)
  | [] => []
  | (name, value) :: fields => (name, levels value) :: levelsOfFields fields

end

/-- The objection to the names in a body, if there is one. -/
def ofNames? (body : Json) : Option Objection := (levels body).flatten.findSome? ofFields?

/-- How many bytes of UTF-8 the text of a body may take. -/
def maxBodyBytes : Nat := 1048576

/-- The objection to a body, if there is one. -/
def ofBody? (body : Body) : Option Objection :=
  if maxBodyBytes < body.text.utf8ByteSize then some tooLarge else ofNames? body.document.value

end Objection

end PredictionMarket.Http
