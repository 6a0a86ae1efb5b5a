import PredictionMarket.Number.Notation
import PredictionMarket.Text.Basic

/-!
# JSON values

What clients send and what they are answered.  `render` writes a value without
blanks.  Within a text it escapes the quote, the backslash, the characters below
the space and the halves of surrogate pairs, and nothing else.  A number that is not
finite has no text of its own, and `null` stands for it.

A `Document` is a value with no two fields of one name in an object, as all values are
that have been read.
-/

namespace PredictionMarket

/-- A JSON value.  The fields of an object keep their order. -/
inductive Json where
  /-- The value `null`. -/
  | null
  /-- A truth value. -/
  | bool (b : Bool)
  /-- A number. -/
  | number (x : Number)
  /-- A text. -/
  | text (t : Text)
  /-- A sequence of values. -/
  | array (items : List Json)
  /-- Values by name. -/
  | object (fields : List (Text × Json))
deriving Repr, Inhabited

namespace Json

/-- The number that an integer is, without rounding. -/
def ofInt (z : Int) : Json := number (.ofInt z)

/-- An integer as a text, which keeps all its digits. -/
def digits (z : Int) : Json := text (Text.integer z)

/-- A sequence of texts. -/
def texts (ts : List Text) : Json := array (ts.map text)

/-- The value of a field, by its name. -/
def field? (fields : List (Text × Json)) (name : String) : Option Json :=
  fields.lookup (Text.ofString name)

/-- The lower-case hexadecimal digit of a number below sixteen. -/
def hexDigit (n : Nat) : Char := (Nat.toDigits 16 n).getD 0 '0'

/-- The escape that spells a unit of sixteen bits by its code. -/
def escaped (code : Nat) : List Char :=
  ['\\', 'u', hexDigit (code / 4096 % 16), hexDigit (code / 256 % 16), hexDigit (code / 16 % 16),
    hexDigit (code % 16)]

/-- A character as it stands within a text. -/
def escape (c : Char) : List Char :=
  if c = '"' then ['\\', '"']
  else if c = '\\' then ['\\', '\\']
  else if c = '\n' then ['\\', 'n']
  else if c = '\r' then ['\\', 'r']
  else if c = '\t' then ['\\', 't']
  else if c.toNat = 8 then ['\\', 'b']
  else if c.toNat = 12 then ['\\', 'f']
  else if c.toNat < 32 then escaped c.toNat
  else [c]

/-- A symbol as it stands within a text. -/
def spell : Symbol → List Char
  | .char c => escape c
  | .high n => escaped (0xD800 + n)
  | .low n => escaped (0xDC00 + n)

/-- A text between quotes. -/
def quoted (t : Text) : String :=
  String.ofList ('"' :: t.symbols.flatMap spell ++ ['"'])

mutual

/-- The text of a value. -/
def render : Json → String
  | null => "null"
  | bool b => if b then "true" else "false"
  | number (.finite q) => (Number.finite q).text
  | number _ => "null"
  | text t => quoted t
  | array items => "[" ++ String.intercalate "," (renderItems items) ++ "]"
  | object fields => "\x7b" ++ String.intercalate "," (renderFields fields) ++ "\x7d"

/-- The texts of the items of a sequence. -/
def renderItems : List Json → List String
  | [] => []
  | item :: items => render item :: renderItems items

/-- The texts of the fields of an object. -/
def renderFields : List (Text × Json) → List String
  | [] => []
  | (name, value) :: fields => (quoted name ++ ":" ++ render value) :: renderFields fields

end

mutual

/-- No object within the value has two fields of one name. -/
def Distinct : Json → Prop
  | array items => DistinctItems items
  | object fields => (fields.map Prod.fst).Nodup ∧ DistinctFields fields
  | null | bool _ | number _ | text _ => True

/-- No object within the items of a sequence has two fields of one name. -/
def DistinctItems : List Json → Prop
  | [] => True
  | item :: items => Distinct item ∧ DistinctItems items

/-- No object within the values of fields has two fields of one name. -/
def DistinctFields : List (Text × Json) → Prop
  | [] => True
  | (_, value) :: fields => Distinct value ∧ DistinctFields fields

end

/-- A value that can be read: the fields of its objects have different names. -/
structure Document where
  /-- The value. -/
  value : Json
  /-- Its objects name no field twice. -/
  distinct : value.Distinct
deriving Repr

theorem distinctItems_iff {items : List Json} :
    DistinctItems items ↔ ∀ item ∈ items, item.Distinct := by
  induction items with
  | nil => simp [DistinctItems]
  | cons item items ih => simp [DistinctItems, ih]

theorem distinctFields_iff {fields : List (Text × Json)} :
    DistinctFields fields ↔ ∀ field ∈ fields, field.2.Distinct := by
  induction fields with
  | nil => simp [DistinctFields]
  | cons field fields ih => simp [DistinctFields, ih]

end Json

end PredictionMarket
