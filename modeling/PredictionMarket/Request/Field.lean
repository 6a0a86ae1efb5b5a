import PredictionMarket.Request.Fault
import PredictionMarket.Width

/-!
# Reading the fields of a request

A field is read from the value under its name, or from nothing where the name is
missing.  A reader answers with what it has read or with all the faults it has
found.  A value of the wrong kind has that fault only.
-/

namespace PredictionMarket

/-- What a reader of a field answers. -/
abbrev Field (α : Type) := Except (List Fault) α

namespace Field

/-- The faults that a reader has found. -/
def faults {α : Type} : Field α → List Fault
  | .ok _ => []
  | .error fs => fs

/-- The fields of an object. -/
def object? : Option Json → Except Faults (List (Text × Json))
  | none => .error (Faults.ofForm .required)
  | some (.object fields) => .ok fields
  | some v => .error (Faults.ofForm (.wrongKind .object v.kind))

/-- A text. -/
def text : Option Json → Field Text
  | none => .error [.required]
  | some (.text t) => .ok t
  | some v => .error [.wrongKind .text v.kind]

/-- A number. -/
def number : Option Json → Field Number
  | none => .error [.required]
  | some (.number x) => .ok x
  | some v => .error [.wrongKind .number v.kind]

/-- A text that is not empty. -/
def filledText (v : Option Json) : Field Text := do
  let t ← text v
  if t.isEmpty then .error [.emptyText] else .ok t

/-- An integer. -/
def whole (v : Option Json) : Field Int := do
  let x ← number v
  match x.whole? with
  | some z => .ok z
  | none => .error [.notWhole]

/-- The faults of a number that has to be an integer and to pass `test`, which
`failure` reports. -/
def wholeFaults (test : Number → Bool) (failure : Fault) (x : Number) : List Fault :=
  (if x.whole?.isSome then [] else [.notWhole]) ++ (if test x then [] else [failure])

/-- An integer above zero. -/
def positive (v : Option Json) : Field Int := do
  let x ← number v
  let isPositive : Number → Bool
    | .finite q => 0 < q.num
    | .infinite below => !below
    | .nan => false
  match x.whole?, wholeFaults isPositive .notPositive x with
  | some z, [] => .ok z
  | _, fs => .error fs

/-- An integer that is not below zero. -/
def natural (v : Option Json) : Field Nat := do
  let x ← number v
  let isNatural : Number → Bool
    | .finite q => 0 ≤ q.num
    | .infinite below => !below
    | .nan => false
  match x.whole?, wholeFaults isNatural .negative x with
  | some z, [] => .ok z.toNat
  | _, fs => .error fs

/-- The amount that a text of ASCII digits names, within 64 bits. -/
def amountOfText (t : Text) : Field Nat :=
  match t.chars?.bind Text.natural? with
  | none => .error [.notNatural]
  | some n => if n ≤ Width.u64.greatest then .ok n else .error [.exceedsU64]

/-- An amount, as a text. -/
def amount (v : Option Json) : Field Nat := do
  let t ← text v
  amountOfText t

/-- An amount, as a text, that may be missing. -/
def optionalAmount : Option Json → Field (Option Nat)
  | none => .ok none
  | some v => (amount (some v)).map some

/-- The index that a text of ASCII digits names.  It is a floating-point number,
so a long text names the nearest one. -/
def indexOfText (t : Text) : Field Nat :=
  match t.chars?.bind Text.natural? with
  | none => .error [.notNaturalIndex]
  | some n =>
    match (Number.nearest (Rat.ofInt n)).whole? with
    | some z => .ok z.toNat
    | none => .error [.notWhole]

/-- An index, as a text. -/
def indexText (v : Option Json) : Field Nat := do
  let t ← text v
  indexOfText t

end Field

end PredictionMarket
