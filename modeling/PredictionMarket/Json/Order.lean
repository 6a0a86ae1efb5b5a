import PredictionMarket.Json.Basic

/-!
# The order of fields

Fields keep the order in which they are written, apart from those whose name is an
index.  Where the fields of an object are gone through, the indices come first, the
lesser before the greater, and then the other fields as they stand.  `perm_enumerated`
says that no field gets lost and none comes up twice.
-/

namespace PredictionMarket.Json

/-- How many indices there are. -/
def indexCount : Nat := 4294967295

/-- The index that a name is, if it is one.  An index has no leading zeros. -/
def index? (name : Text) : Option Nat :=
  (name.chars?.bind Text.natural?).filter fun n =>
    n < indexCount && Text.ofString (Text.integer n) == name

/-- The name is an index. -/
def isIndex (name : Text) : Bool := (index? name).isSome

/-- The entries in the order in which they are gone through by their names. -/
def enumerated {α : Type} (entries : List (Text × α)) : List (Text × α) :=
  (entries.filter fun entry => isIndex entry.1).mergeSort
      (fun a b => (index? a.1).getD 0 ≤ (index? b.1).getD 0) ++
    entries.filter fun entry => !isIndex entry.1

/-- Going through the entries reaches each of them once. -/
theorem perm_enumerated {α : Type} (entries : List (Text × α)) :
    (enumerated entries).Perm entries :=
  ((List.mergeSort_perm _ _).append_right _).trans (List.filter_append_perm _ entries)

end PredictionMarket.Json
