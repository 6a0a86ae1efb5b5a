import PredictionMarket.Proofs.Http.Effect
import PredictionMarket.Proofs.Text.Percent

/-!
# Paths to labels

Every sequence of segments is the path of a target, the one that writes them with escapes
behind slashes (`Target.path?_ofSegments`).  So every string that is short enough for a
segment has a route of its own, which `looking` asks for (`gets_looking`).  The target is the
one that arrives.  A reader of targets resolves dots, so it does not give a target with a
segment `..`, but one that comes unread may have it.

A text with half of a surrogate pair in it has no route.  What a path spells is a string, and
no string has such a half (`Request.Gets.exists_string`).
-/

namespace PredictionMarket

namespace Http

/-- The character stands for itself in every part of a target. -/
def isUnreserved (c : Char) : Bool := c.isAlphanum || ['-', '.', '_', '~'].contains c

theorem plain_isUnreserved : Text.Plain isUnreserved := by
  intro c hc
  simp only [isUnreserved, Bool.or_eq_true, List.contains_eq_mem, decide_eq_true_eq] at hc
  rcases hc with halnum | hmark
  · have hlt : c.toNat < 128 := by
      simp only [Char.isAlphanum, Char.isAlpha, Char.isUpper, Char.isLower, Char.isDigit,
        Bool.or_eq_true, Bool.and_eq_true, decide_eq_true_eq, ge_iff_le,
        UInt32.le_iff_toNat_le] at halnum
      have hupper : 'Z'.val.toNat = 90 := rfl
      have hlower : 'z'.val.toNat = 122 := rfl
      have hdigit : '9'.val.toNat = 57 := rfl
      show c.val.toNat < 128
      omega
    exact ⟨hlt, by rintro rfl; exact absurd halnum (by decide)⟩
  · simp only [List.mem_cons, List.not_mem_nil, or_false] at hmark
    rcases hmark with rfl | rfl | rfl | rfl <;> decide

/-- The segment of a path that spells a string. -/
def spelled (s : String) : List Char := Text.percentEncode isUnreserved s.toList

/-- None of the characters with a meaning of their own stands in a segment. -/
theorem not_mem_spelled {c : Char} (hc : c ∈ ['/', '?', ';']) (s : String) : c ∉ spelled s := by
  intro hmem
  simp only [List.mem_cons, List.not_mem_nil, or_false] at hc
  rcases Text.of_mem_percentEncode hmem with hplain | rfl | ⟨n, hn, rfl⟩
  · rcases hc with rfl | rfl | rfl <;> exact absurd hplain (by decide)
  · simp at hc
  · have hdigit : ∀ n < 16, Text.escapeDigit n ≠ '/' ∧ Text.escapeDigit n ≠ '?' ∧
        Text.escapeDigit n ≠ ';' := by decide
    obtain ⟨h1, h2, h3⟩ := hdigit n hn
    simp [h1, h2, h3] at hc

theorem percentDecode?_spelled (s : String) :
    Text.percentDecode? (String.ofList (spelled s)) = some s := by
  rw [spelled, Text.percentDecode?_percentEncode plain_isUnreserved, String.ofList_toList]

/-- What stands in joined sequences stands in one of them or in what joins them. -/
theorem mem_of_mem_intercalate {α : Type} {a : α} {sep : List α} {ls : List (List α)}
    (h : a ∈ sep.intercalate ls) : a ∈ sep ∨ ∃ l ∈ ls, a ∈ l := by
  induction ls with
  | nil => exact absurd h (by simp [List.intercalate])
  | cons l ls ih =>
    cases ls with
    | nil =>
      rw [List.intercalate_singleton] at h
      exact .inr ⟨l, List.mem_cons_self, h⟩
    | cons l' ls =>
      rw [List.intercalate_cons_cons, List.append_assoc, List.mem_append, List.mem_append] at h
      rcases h with hl | hsep | hrest
      · exact .inr ⟨l, List.mem_cons_self, hl⟩
      · exact .inl hsep
      · rcases ih hrest with hsep | ⟨k, hk, hmem⟩
        · exact .inl hsep
        · exact .inr ⟨k, List.mem_cons_of_mem _ hk, hmem⟩

/-- The target with a path of segments. -/
def Target.ofSegments (segments : List String) : Target :=
  ⟨'/' :: ['/'].intercalate (segments.map spelled)⟩

/-- The segments of the path are those that it was made of. -/
theorem Target.path?_ofSegments {segments : List String} (h : segments ≠ []) :
    (ofSegments segments).path? = some segments := by
  have hrouted : (ofSegments segments).routed = '/' :: ['/'].intercalate (segments.map spelled) :=
    rfl
  have hends : ∀ c ∈ ['/'].intercalate (segments.map spelled), !endsPath c := by
    intro c hc
    rcases mem_of_mem_intercalate hc with hslash | ⟨segment, hsegment, hmem⟩
    · obtain rfl := List.mem_singleton.mp hslash
      decide
    · obtain ⟨s, -, rfl⟩ := List.mem_map.mp hsegment
      have hmark : c ≠ '?' := fun heq => not_mem_spelled (by simp) s (heq ▸ hmem)
      have hsemicolon : c ≠ ';' := fun heq => not_mem_spelled (by simp) s (heq ▸ hmem)
      simp [endsPath, hmark, hsemicolon]
  have hsplit : (['/'].intercalate (segments.map spelled)).splitOn '/' = segments.map spelled := by
    refine List.splitOn_intercalate '/' ?_ (by simpa using h)
    intro segment hsegment
    obtain ⟨s, -, rfl⟩ := List.mem_map.mp hsegment
    exact not_mem_spelled (by simp) s
  have hdecode : ((fun segment => Text.percentDecode? (String.ofList segment)) ∘ spelled) =
      fun s => pure s := funext percentDecode?_spelled
  rw [path?, hrouted, List.drop_one, List.tail_cons, List.takeWhile_eq_self_iff.mpr hends, hsplit,
    List.mapM_map, hdecode, List.mapM_pure, List.map_id']
  rfl

example : Target.read "/api/markets/a%20b" = .ok (.ofSegments ["api", "markets", "a b"]) := by
  decide +kernel

/-! ## Labels -/

/-- A character takes no more units of sixteen bits than bytes. -/
theorem length_unitsOf_le (c : Char) : (Text.unitsOf c).length ≤ c.utf8Size := by
  rw [Text.unitsOf]
  split
  · exact c.utf8Size_pos
  · rename_i hlarge
    have hsize : c.utf8Size = 4 := by
      have hval : 65536 ≤ c.val.toNat := not_lt.mp hlarge
      simp only [Char.utf8Size, UInt32.le_iff_toNat_le, UInt32.toNat_ofNatLT]
      rw [if_neg (by omega), if_neg (by omega), if_neg (by omega)]
    rw [hsize, List.length_cons, List.length_singleton]
    omega

theorem length_units_le (cs : List Char) : (Text.units cs).length ≤ String.utf8Len cs := by
  induction cs with
  | nil => exact le_rfl
  | cons c cs ih =>
    have hc := length_unitsOf_le c
    rw [Text.units, List.flatMap_cons, List.length_append, String.utf8Len_cons]
    exact (Nat.add_le_add hc ih).trans_eq (Nat.add_comm _ _)

/-- A string that takes few bytes is a label. -/
theorem label?_of_le {s : String} (h : s.utf8ByteSize ≤ maxSegmentUnits) :
    label? s = some (Text.ofString s) := by
  have hlen := length_units_le s.toList
  rw [← String.utf8ByteSize_ofList, String.ofList_toList] at hlen
  rw [label?, if_pos (hlen.trans h)]

/-- The request gets what a route shows. -/
def Request.Gets (request : Request) (route : Route) : Prop :=
  request.method = .get ∧ request.route? = some route

/-- A request for the snapshot of a market. -/
def looking (label : String) : Request where
  method := .get
  target := .ofSegments ["api", "markets", label]
  received := none

theorem gets_looking {s : String} (h : s.utf8ByteSize ≤ maxSegmentUnits) :
    (looking s).Gets (.snapshot (Text.ofString s)) := by
  have hpath : (looking s).target.path? = some ["api", "markets", s] :=
    Target.path?_ofSegments (by simp)
  refine ⟨rfl, ?_⟩
  rw [Request.route?_eq hpath]
  show (label? s).map Route.snapshot = _
  rw [label?_of_le h, Option.map_some]

/-- A label that a path leads to is a string. -/
theorem Request.Gets.exists_string {request : Request} {label : Text}
    (h : request.Gets (.snapshot label)) : ∃ s, label = Text.ofString s := by
  obtain ⟨hmethod, hroute⟩ := h
  obtain ⟨path, -, hfind⟩ := Option.bind_eq_some_iff.mp hroute
  rw [hmethod] at hfind
  simp only [Route.find?] at hfind
  unfold Route.toRead? at hfind
  split at hfind
  · exact absurd hfind (by simp)
  · exact absurd hfind (by simp)
  · rename_i segment
    obtain ⟨found, hfound, heq⟩ := Option.map_eq_some_iff.mp hfind
    obtain rfl := Route.snapshot.inj heq
    rw [label?] at hfound
    split at hfound
    · exact ⟨segment, (Option.some.inj hfound).symm⟩
    · exact absurd hfound (by simp)
  · rename_i segment
    obtain ⟨found, -, heq⟩ := Option.map_eq_some_iff.mp hfind
    exact absurd heq (by simp)
  · exact absurd hfind (by simp)

/-- A short label has a route just where no half of a surrogate pair stands in it. -/
theorem exists_gets_snapshot_iff {label : Text} (h : label.utf8Size ≤ maxSegmentUnits) :
    (∃ request : Request, request.Gets (.snapshot label)) ↔ label.string?.isSome := by
  constructor
  · rintro ⟨request, hgets⟩
    obtain ⟨s, rfl⟩ := hgets.exists_string
    rw [Text.string?_eq_some_iff.mpr rfl]
    rfl
  · intro hstring
    obtain ⟨s, hs⟩ := Option.isSome_iff_exists.mp hstring
    obtain rfl := Text.string?_eq_some_iff.mp hs
    rw [Text.utf8Size_ofString] at h
    exact ⟨looking s, gets_looking h⟩

end Http

end PredictionMarket
