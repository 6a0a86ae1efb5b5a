import PredictionMarket.Json.Basic

/-!
# What is wrong with a request

A `Fault` is one thing that is wrong with a value.  `Faults` collects them: those
of the value as a whole, and those of its fields by name.  A value that is no
object has no faulty fields.
-/

namespace PredictionMarket

namespace Json

/-- The kinds of JSON values. -/
inductive Kind where
  | null
  | boolean
  | number
  | text
  | array
  | object
deriving DecidableEq, Repr

/-- The name of a kind. -/
def Kind.name : Kind → String
  | null => "null"
  | boolean => "boolean"
  | number => "number"
  | text => "string"
  | array => "array"
  | object => "object"

/-- The kind of a value. -/
def kind : Json → Kind
  | null => .null
  | bool _ => .boolean
  | number _ => .number
  | text _ => .text
  | array _ => .array
  | object _ => .object

end Json

/-- One thing that is wrong with a value. -/
inductive Fault where
  /-- The value is missing. -/
  | required
  /-- The value is of another kind than expected. -/
  | wrongKind (expected received : Json.Kind)
  /-- The text is empty. -/
  | emptyText
  /-- The number is not an integer. -/
  | notWhole
  /-- The number is not above zero. -/
  | notPositive
  /-- The number is below zero. -/
  | negative
  /-- The text of an amount is not a run of ASCII digits. -/
  | notNatural
  /-- The text of an index is not a run of ASCII digits. -/
  | notNaturalIndex
  /-- The amount does not fit 64 bits. -/
  | exceedsU64
deriving DecidableEq, Repr

/-- The sentence that describes a fault. -/
def Fault.message : Fault → String
  | required => "Required"
  | wrongKind expected received =>
    "Expected " ++ expected.name ++ ", received " ++ received.name
  | emptyText => "String must contain at least 1 character(s)"
  | notWhole => "Expected integer, received float"
  | notPositive => "Number must be greater than 0"
  | negative => "Number must be greater than or equal to 0"
  | notNatural => "must be a non-negative integer string"
  | notNaturalIndex => "must be a non-negative integer"
  | exceedsU64 => "exceeds u64 range"

/-- Everything that is wrong with a value. -/
structure Faults where
  /-- The faults of the value as a whole. -/
  form : List Fault
  /-- The faults of the fields, by the name of the field. -/
  fields : List (String × List Fault)
deriving DecidableEq, Repr

namespace Faults

/-- A single fault of the value as a whole. -/
def ofForm (fault : Fault) : Faults := ⟨[fault], []⟩

/-- The faults of the fields, where fields without a fault do not count. -/
def ofFields (fields : List (String × List Fault)) : Faults :=
  ⟨[], fields.filter fun field => !field.2.isEmpty⟩

/-- The sentences that describe faults. -/
def messages (fs : List Fault) : Json := Json.texts (fs.map fun f => f.message)

/-- The faults as a JSON value. -/
def toJson (faults : Faults) : Json :=
  .object [
    ("fieldErrors", .object (faults.fields.map fun field => (field.1, messages field.2))),
    ("formErrors", messages faults.form)]

end Faults

end PredictionMarket
