import Mathlib
import PredictionMarket.Registry.Basic

/-!
# The entries of a registry

What a look-up finds stands in the first entry of its label (`find?_eq_some_iff`), and
`Registry.replace` changes that entry and no other (`entries_replace`).  So a market in its own
place leaves the registry as it is (`replace_self`), which is how a refused trade does.

A market is registered under a label that no other has (`nodup_labels_append`), and replacing
it leaves the labels alone, so no two markets of a registry share one.
-/

namespace PredictionMarket.Registry

/-! ## Look-ups -/

/-- A market that is found has the first entry of its label. -/
theorem find?_eq_some_iff {r : Registry} {label : Text} {m : Market} :
    r.find? label = some m ↔
      ∃ before after, r.entries = before ++ (label, m) :: after ∧
        ∀ entry ∈ before, entry.1 ≠ label := by
  rw [find?, List.lookup_eq_some_iff]
  simp only [bne_iff_ne, ne_comm]

theorem mem_markets_of_find? {r : Registry} {label : Text} {m : Market}
    (h : r.find? label = some m) : m ∈ r.markets := by
  obtain ⟨before, after, hsplit, -⟩ := find?_eq_some_iff.mp h
  rw [markets, hsplit, List.map_append, List.map_cons]
  exact List.mem_append_right _ List.mem_cons_self

/-- A label without a market is not among the labels. -/
theorem find?_eq_none_iff {r : Registry} {label : Text} :
    r.find? label = none ↔ label ∉ r.labels := by
  rw [← find?_isSome_iff, Option.not_isSome_iff_eq_none]

/-! ## One more market -/

/-- A market under a new label shares it with no other. -/
theorem nodup_labels_append {r : Registry} (hr : r.labels.Nodup) {label : Text}
    (h : r.find? label = none) (m : Market) : (r.append label m).labels.Nodup := by
  rw [labels_append, List.nodup_append]
  refine ⟨hr, List.nodup_singleton label, ?_⟩
  intro old hold new hnew heq
  obtain rfl := List.mem_singleton.mp hnew
  exact find?_eq_none_iff.mp h (heq ▸ hold)

/-- What holds of all markets and of a new one holds of all markets with the new one. -/
theorem forall_mem_markets_append {P : Market → Prop} {r : Registry} (h : ∀ m ∈ r.markets, P m)
    (label : Text) {new : Market} (hnew : P new) : ∀ m ∈ (r.append label new).markets, P m := by
  intro m hmem
  rw [markets, append, List.map_append, List.mem_append] at hmem
  rcases hmem with hold | hmem
  · exact h m hold
  · obtain rfl : m = new := by simpa using hmem
    exact hnew

/-! ## A market in the place of another -/

theorem replaceIn_append {label : Text} {m m' : Market} {before after : List (Text × Market)}
    (h : ∀ entry ∈ before, entry.1 ≠ label) :
    replaceIn label m' (before ++ (label, m) :: after) = before ++ (label, m') :: after := by
  induction before with
  | nil => rw [List.nil_append, replaceIn, if_pos rfl, List.nil_append]
  | cons entry before ih =>
    rw [List.forall_mem_cons] at h
    rw [List.cons_append, replaceIn, if_neg h.1, ih h.2, List.cons_append]

/-- A replacement changes the entry of the market that is found, and no other. -/
theorem entries_replace {r : Registry} {label : Text} {m : Market} (h : r.find? label = some m)
    (m' : Market) :
    ∃ before after, r.entries = before ++ (label, m) :: after ∧
      (r.replace label m').entries = before ++ (label, m') :: after ∧
        ∀ entry ∈ before, entry.1 ≠ label := by
  obtain ⟨before, after, hsplit, hbefore⟩ := find?_eq_some_iff.mp h
  exact ⟨before, after, hsplit, by rw [replace, hsplit, replaceIn_append hbefore], hbefore⟩

/-- A market in its own place leaves the registry as it is. -/
theorem replace_self {r : Registry} {label : Text} {m : Market} (h : r.find? label = some m) :
    r.replace label m = r := by
  obtain ⟨before, after, hbefore, hafter, -⟩ := entries_replace h m
  exact congrArg Registry.mk (hafter.trans hbefore.symm)

/-- The market in the place of the one with the label is found under it. -/
theorem find?_replace_self {r : Registry} {label : Text} {m : Market}
    (h : r.find? label = some m) (m' : Market) :
    (r.replace label m').find? label = some m' := by
  obtain ⟨before, after, -, hsplit, hbefore⟩ := entries_replace h m'
  exact find?_eq_some_iff.mpr ⟨before, after, hsplit, hbefore⟩

/-- Every other label keeps its market. -/
theorem find?_replace_of_ne (r : Registry) {label other : Text} (h : other ≠ label)
    (m : Market) : (r.replace label m).find? other = r.find? other := by
  obtain ⟨entries⟩ := r
  unfold find? replace
  induction entries with
  | nil => rfl
  | cons entry entries ih =>
    obtain ⟨key, old⟩ := entry
    rw [replaceIn]
    split
    · rename_i hkey
      obtain rfl : key = label := hkey
      have hne : (other == key) = false := beq_false_of_ne h
      rw [List.lookup_cons, List.lookup_cons, hne]
    · rw [List.lookup_cons, List.lookup_cons]
      cases other == key with
      | true => rfl
      | false => exact ih

/-- An entry after a replacement is the new one or one from before. -/
theorem mem_entries_replace {r : Registry} {label : Text} {m : Market} {entry : Text × Market}
    (h : entry ∈ (r.replace label m).entries) : entry = (label, m) ∨ entry ∈ r.entries := by
  obtain ⟨entries⟩ := r
  simp only [replace] at h ⊢
  induction entries with
  | nil => exact .inr h
  | cons first entries ih =>
    rw [replaceIn] at h
    split at h
    · exact (List.mem_cons.mp h).imp_right (List.mem_cons_of_mem first)
    · rcases List.mem_cons.mp h with rfl | h
      · exact .inr List.mem_cons_self
      · exact (ih h).imp_right (List.mem_cons_of_mem first)

/-- What holds of all markets and of one in the place of another holds of all markets then. -/
theorem forall_mem_markets_replace {P : Market → Prop} {r : Registry} (h : ∀ m ∈ r.markets, P m)
    (label : Text) {new : Market} (hnew : P new) : ∀ m ∈ (r.replace label new).markets, P m := by
  intro m hmem
  obtain ⟨entry, hentry, rfl⟩ := List.mem_map.mp hmem
  rcases mem_entries_replace hentry with rfl | hold
  · exact hnew
  · exact h entry.2 (List.mem_map_of_mem hold)

end PredictionMarket.Registry
