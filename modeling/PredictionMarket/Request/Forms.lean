import PredictionMarket.Request.Field

/-!
# The forms of requests

The four things that a client sends: the label in a path, the terms of a new
market, the order of a purchase, and the same order in the query of a preview.
A form is read as a whole or refused with the faults of all its fields.
-/

namespace PredictionMarket

/-- The label in a path. -/
structure LabelForm where
  /-- The label. -/
  label : Text
deriving DecidableEq, Repr

/-- The terms of a new market. -/
structure CreationForm where
  /-- The name of the market. -/
  label : Text
  /-- Who may administer the market. -/
  admin : Text
  /-- The number of outcomes. -/
  outcomes : Int
  /-- The liquidity scale, if one is asked for. -/
  scale : Option Nat
  /-- The time at which trading ends. -/
  resolveAt : Int
deriving DecidableEq, Repr

/-- The order of a purchase. -/
structure OrderForm where
  /-- The index of the outcome. -/
  outcome : Nat
  /-- The payment. -/
  payment : Nat
deriving DecidableEq, Repr

/-- Reads the label of a path. -/
def LabelForm.read (v : Option Json) : Except Faults LabelForm := do
  let fields ← Field.object? v
  match Field.filledText (Json.field? fields "label") with
  | .ok label => .ok ⟨label⟩
  | .error fs => .error (Faults.ofFields [("label", fs)])

/-- Reads the terms of a new market. -/
def CreationForm.read (v : Option Json) : Except Faults CreationForm := do
  let fields ← Field.object? v
  let label := Field.filledText (Json.field? fields "label")
  let admin := Field.filledText (Json.field? fields "admin")
  let outcomes := Field.whole (Json.field? fields "numOutcomes")
  let scale := Field.optionalAmount (Json.field? fields "scale")
  let resolveAt := Field.positive (Json.field? fields "resolveAt")
  match label, admin, outcomes, scale, resolveAt with
  | .ok label, .ok admin, .ok outcomes, .ok scale, .ok resolveAt =>
    .ok {
      label := label
      admin := admin
      outcomes := outcomes
      scale := scale
      resolveAt := resolveAt
    }
  | _, _, _, _, _ =>
    .error (Faults.ofFields [
      ("admin", admin.faults),
      ("label", label.faults),
      ("numOutcomes", outcomes.faults),
      ("resolveAt", resolveAt.faults),
      ("scale", scale.faults)])

namespace OrderForm

/-- The order of an outcome and a payment, or the faults of both. -/
def ofFields (outcome payment : Field Nat) : Except Faults OrderForm :=
  match outcome, payment with
  | .ok outcome, .ok payment => .ok ⟨outcome, payment⟩
  | _, _ =>
    .error (Faults.ofFields [("amount", payment.faults), ("outcomeIndex", outcome.faults)])

/-- Reads the order of a purchase. -/
def read (v : Option Json) : Except Faults OrderForm := do
  let fields ← Field.object? v
  ofFields (Field.natural (Json.field? fields "outcomeIndex")) (Field.amount (Json.field? fields "amount"))

/-- Reads the order of a preview, in which all values are texts. -/
def readQuery (v : Option Json) : Except Faults OrderForm := do
  let fields ← Field.object? v
  ofFields (Field.indexText (Json.field? fields "outcomeIndex")) (Field.amount (Json.field? fields "amount"))

end OrderForm

end PredictionMarket
