import PredictionMarket.Json.Basic
import PredictionMarket.Text.Percent

/-!
# Queries

A query is a sequence of pairs between ampersands, each split at its first equals
sign; a pair without one has the empty value.  In names and values `+` stands for
a blank, and percent escapes are decoded, a broken text being kept as it is.

A name that occurs several times collects its values in an array.
-/

namespace PredictionMarket.Http.Query

/-- The text that a name or a value stands for. -/
def decode (cs : List Char) : String :=
  let s := String.ofList (cs.map fun c => if c = '+' then ' ' else c)
  (Text.percentDecode? s).getD s

/-- The name and the value of a pair. -/
def pair (cs : List Char) : String × String :=
  (decode (cs.takeWhile (· ≠ '=')), decode ((cs.dropWhile (· ≠ '=')).drop 1))

/-- The pairs of a query, where empty ones do not count. -/
def pairs (cs : List Char) : List (String × String) :=
  ((cs.splitOn '&').filter (!·.isEmpty)).map pair

/-- The value behind a name whose texts in the query are these. -/
def value : List String → Json
  | [s] => .text s
  | ss => Json.texts (ss.map Text.ofString)

/-- The values of a query by their names. -/
def fields (cs : List Char) : List (Text × Json) :=
  let ps := pairs cs
  (ps.map Prod.fst).eraseDups.map fun name =>
    (Text.ofString name, value ((ps.filter (·.1 = name)).map Prod.snd))

theorem nodup_eraseDups (names : List String) : names.eraseDups.Nodup := by
  match names with
  | [] => simp
  | name :: names =>
    rw [List.eraseDups_cons]
    refine List.nodup_cons.mpr ⟨by simp [List.mem_eraseDups], nodup_eraseDups _⟩
termination_by names.length
decreasing_by
  exact Nat.lt_succ_of_le (List.length_filter_le _ _)

/-- A query collects its values by name, so no name has two of them. -/
theorem nodup_names (cs : List Char) : ((fields cs).map Prod.fst).Nodup := by
  simp only [fields, List.map_map]
  refine List.pairwise_map.mpr ((nodup_eraseDups _).imp ?_)
  intro name name' hne heq
  exact hne (Text.ofString_injective heq)

theorem distinct_value (ss : List String) : (value ss).Distinct := by
  unfold value
  split
  · trivial
  · simp [Json.texts, Json.Distinct, Json.distinctItems_iff]

/-- The query as an object. -/
def document (cs : List Char) : Json.Document where
  value := .object (fields cs)
  distinct := by
    refine ⟨nodup_names cs, Json.distinctFields_iff.mpr ?_⟩
    intro field hfield
    obtain ⟨name, -, rfl⟩ := List.mem_map.mp hfield
    exact distinct_value _

end PredictionMarket.Http.Query
