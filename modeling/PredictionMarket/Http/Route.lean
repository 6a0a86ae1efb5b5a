import PredictionMarket.Http.Method
import PredictionMarket.Text.Units

/-!
# Routes

The requests that the service knows, by method and path.  An empty label is a
label as far as the routes go, and one that takes more than `maxSegmentUnits`
units of sixteen bits is none.
-/

namespace PredictionMarket.Http

/-- What a request asks for. -/
inductive Route where
  /-- A sign of life. -/
  | health
  /-- A new market. -/
  | create
  /-- The snapshots of all markets. -/
  | list
  /-- The snapshot of one market. -/
  | snapshot (label : Text)
  /-- The preview of a purchase. -/
  | quote (label : Text)
  /-- A purchase. -/
  | buy (label : Text)
deriving DecidableEq, Repr

/-- How many units of sixteen bits a label in a path may take. -/
def maxSegmentUnits : Nat := 100

/-- The label that a segment of a path is, unless it is too long. -/
def label? (segment : String) : Option Text :=
  if (Text.units segment.toList).length ≤ maxSegmentUnits then some (Text.ofString segment)
  else none

/-- The route to look something up, where a path leads to one. -/
def Route.toRead? : List String → Option Route
  | ["health"] => some .health
  | ["api", "markets"] => some .list
  | ["api", "markets", label] => (label? label).map .snapshot
  | ["api", "markets", label, "quote"] => (label? label).map .quote
  | _ => none

/-- The route to change something, where a path leads to one. -/
def Route.toWrite? : List String → Option Route
  | ["api", "markets"] => some .create
  | ["api", "markets", label, "buy"] => (label? label).map .buy
  | _ => none

/-- The route of a method and a path, where there is one. -/
def Route.find? (method : Method) (path : List String) : Option Route :=
  match method with
  | .get | .head => toRead? path
  | .post => toWrite? path
  | .options | .other _ => none

end PredictionMarket.Http
