import Mathlib
import PredictionMarket.Json.Reader

/-!
# The fuel of the readers

A text is read with fuel for twice its length, and more fuel would not change what is read:
`readValue_eq_of_le`.  Every reader leaves less of the text than it was given (`Shortens`).  So
with an item and the comma behind it two characters are gone, and they pay for the fuel that the
item and the rest of the sequence take.
-/

namespace PredictionMarket.Json

/-! ## What the readers leave -/

theorem length_skipBlanks_le (cs : List Char) : (skipBlanks cs).length ≤ cs.length :=
  List.length_dropWhile_le _ cs

variable {cs rest : List Char}

theorem length_of_skipBlanks_eq_cons {c : Char} (h : skipBlanks cs = c :: rest) :
    rest.length < cs.length := by
  have hle := length_skipBlanks_le cs
  rw [h, List.length_cons] at hle
  exact hle

theorem length_of_afterWord {word : List Char} (h : afterWord word cs = .ok rest) :
    rest.length + word.length = cs.length := by
  induction word generalizing cs with
  | nil =>
    cases h
    rfl
  | cons w word ih =>
    cases cs with
    | nil => cases h
    | cons c cs =>
      rw [afterWord] at h
      split at h
      · have := ih h
        simp only [List.length_cons]
        omega
      · cases h

theorem length_of_readWord {word : String} {value meant : Json} (hword : word.toList ≠ [])
    (h : readWord word meant cs = .ok (value, rest)) : rest.length < cs.length := by
  obtain ⟨left, hleft, h⟩ := bind_eq_ok_iff.mp h
  cases h
  have hlength := length_of_afterWord hleft
  have hpos := List.length_pos_iff.mpr hword
  omega

theorem length_of_readSymbols {done us : List Symbol}
    (h : readSymbols done cs = .ok (us, rest)) : rest.length < cs.length := by
  fun_induction readSymbols done cs with
  | case1 => cases h
  | case2 =>
    cases h
    simp
  | case3 _ _ _ _ _ _ _ _ ih =>
    have := ih h
    simp only [List.length_cons]
    omega
  | case4 => cases h
  | case5 _ _ _ _ _ _ ih =>
    have := ih h
    simp only [List.length_cons]
    omega
  | case6 => cases h
  | case7 => cases h
  | case8 _ _ _ _ _ _ _ ih =>
    have := ih h
    simp only [List.length_cons]
    omega

theorem length_of_readText {t : Text} (h : readText cs = .ok (t, rest)) :
    rest.length < cs.length := by
  obtain ⟨⟨us, behind⟩, hread, h⟩ := bind_eq_ok_iff.mp h
  cases h
  exact length_of_readSymbols hread

theorem length_of_readDigits {ds : List Char} (h : readDigits cs = .ok (ds, rest)) :
    rest.length < cs.length := by
  simp only [readDigits] at h
  split at h
  · cases h
  · rename_i hsome
    cases h
    have hsplit : (cs.takeWhile Char.isDigit ++ cs.dropWhile Char.isDigit).length = cs.length :=
      congrArg List.length List.takeWhile_append_dropWhile
    rw [List.length_append] at hsplit
    have hpos := List.length_pos_iff.mpr (mt List.isEmpty_iff.mpr hsome)
    omega

theorem length_of_readWhole {ds : List Char} (h : readWhole cs = .ok (ds, rest)) :
    rest.length < cs.length := by
  unfold readWhole at h
  split at h
  · cases h
    simp
  · exact length_of_readDigits h

theorem length_of_readPlaces {ds : List Char} (h : readPlaces cs = .ok (ds, rest)) :
    rest.length ≤ cs.length := by
  unfold readPlaces at h
  split at h
  · exact (length_of_readDigits h).le.trans (Nat.le_succ _)
  · cases h
    exact le_rfl

theorem length_of_readPower {sign e : Int} (h : readPower sign cs = .ok (e, rest)) :
    rest.length ≤ cs.length := by
  obtain ⟨⟨ds, left⟩, hread, h⟩ := bind_eq_ok_iff.mp h
  cases h
  exact (length_of_readDigits hread).le

theorem length_of_readExponent {e : Int} (h : readExponent cs = .ok (e, rest)) :
    rest.length ≤ cs.length := by
  unfold readExponent at h
  split at h
  · cases h
    exact le_rfl
  · split at h
    · refine le_trans ?_ (Nat.le_succ _)
      split at h
      · exact (length_of_readPower h).trans (Nat.le_succ _)
      · exact (length_of_readPower h).trans (Nat.le_succ _)
      · exact length_of_readPower h
    · cases h
      exact le_rfl

theorem length_of_readUnsigned {x : Number} (h : readUnsigned cs = .ok (x, rest)) :
    rest.length < cs.length := by
  obtain ⟨⟨whole, behind⟩, hwhole, h⟩ := bind_eq_ok_iff.mp h
  obtain ⟨⟨places, behind'⟩, hplaces, h⟩ := bind_eq_ok_iff.mp h
  obtain ⟨⟨exponent, behind''⟩, hexponent, h⟩ := bind_eq_ok_iff.mp h
  cases h
  calc rest.length ≤ behind'.length := length_of_readExponent hexponent
    _ ≤ behind.length := length_of_readPlaces hplaces
    _ < cs.length := length_of_readWhole hwhole

theorem length_of_readNegative {x : Number} (h : readNegative cs = .ok (x, rest)) :
    rest.length < cs.length := by
  unfold readNegative at h
  split at h
  · cases h
  · obtain ⟨⟨x, behind⟩, hread, h⟩ := bind_eq_ok_iff.mp h
    cases h
    exact length_of_readUnsigned hread

theorem length_of_readName {t : Text} (h : readName cs = .ok (t, rest)) :
    rest.length < cs.length := by
  unfold readName at h
  split at h
  · exact (length_of_readText h).trans (length_of_skipBlanks_eq_cons ‹_›)
  · cases h

theorem length_of_afterColon (h : afterColon cs = .ok rest) : rest.length < cs.length := by
  unfold afterColon at h
  split at h
  · cases h
    exact length_of_skipBlanks_eq_cons ‹_›
  · cases h

/-- What the readers leave with this much fuel is shorter than what they were given. -/
structure Shortens (fuel : Nat) : Prop where
  /-- The reader of values. -/
  value {cs rest : List Char} {value : Json} :
    readValue fuel cs = .ok (value, rest) → rest.length < cs.length
  /-- The reader of items. -/
  items {done : List Json} {cs rest : List Char} {value : Json} :
    readItems fuel done cs = .ok (value, rest) → rest.length < cs.length
  /-- The reader of fields. -/
  fields {done : List (Text × Json)} {cs rest : List Char} {value : Json} :
    readFields fuel done cs = .ok (value, rest) → rest.length < cs.length

variable {fuel : Nat} {value : Json}

theorem Shortens.value_succ (h : Shortens fuel)
    (hread : readValue (fuel + 1) cs = .ok (value, rest)) : rest.length < cs.length := by
  rw [readValue] at hread
  split at hread
  · rename_i hskip
    obtain ⟨⟨t, behind⟩, htext, hread⟩ := bind_eq_ok_iff.mp hread
    cases hread
    exact (length_of_readText htext).trans (length_of_skipBlanks_eq_cons hskip)
  · rename_i hskip
    have hinner := length_of_skipBlanks_eq_cons hskip
    split at hread
    · rename_i hskip'
      cases hread
      exact (length_of_skipBlanks_eq_cons hskip').trans hinner
    · exact (h.items hread).trans_le ((length_skipBlanks_le _).trans hinner.le)
  · rename_i hskip
    have hinner := length_of_skipBlanks_eq_cons hskip
    split at hread
    · rename_i hskip'
      cases hread
      exact (length_of_skipBlanks_eq_cons hskip').trans hinner
    · exact (h.fields hread).trans_le ((length_skipBlanks_le _).trans hinner.le)
  · rename_i hskip
    exact (length_of_readWord (by decide) hread).trans_le (hskip ▸ length_skipBlanks_le cs)
  · rename_i hskip
    exact (length_of_readWord (by decide) hread).trans_le (hskip ▸ length_skipBlanks_le cs)
  · rename_i hskip
    exact (length_of_readWord (by decide) hread).trans_le (hskip ▸ length_skipBlanks_le cs)
  · rename_i hskip
    obtain ⟨⟨x, behind⟩, hnumber, hread⟩ := bind_eq_ok_iff.mp hread
    cases hread
    exact (length_of_readNegative hnumber).trans (length_of_skipBlanks_eq_cons hskip)
  · split at hread
    · cases hread
    · obtain ⟨⟨x, behind⟩, hnumber, hread⟩ := bind_eq_ok_iff.mp hread
      cases hread
      exact (length_of_readUnsigned hnumber).trans_le (length_skipBlanks_le _)

theorem Shortens.items_succ (h : Shortens fuel) {done : List Json}
    (hread : readItems (fuel + 1) done cs = .ok (value, rest)) : rest.length < cs.length := by
  rw [readItems] at hread
  obtain ⟨⟨item, behind⟩, hitem, hread⟩ := bind_eq_ok_iff.mp hread
  have hbehind := h.value hitem
  simp only at hread
  split at hread
  · rename_i hskip
    exact (h.items hread).trans ((length_of_skipBlanks_eq_cons hskip).trans hbehind)
  · rename_i hskip
    cases hread
    exact (length_of_skipBlanks_eq_cons hskip).trans hbehind
  · cases hread

theorem Shortens.fields_succ (h : Shortens fuel) {done : List (Text × Json)}
    (hread : readFields (fuel + 1) done cs = .ok (value, rest)) : rest.length < cs.length := by
  rw [readFields] at hread
  obtain ⟨⟨name, behind⟩, hname, hread⟩ := bind_eq_ok_iff.mp hread
  obtain ⟨behind', hcolon, hread⟩ := bind_eq_ok_iff.mp hread
  obtain ⟨⟨inner, behind''⟩, hinner, hread⟩ := bind_eq_ok_iff.mp hread
  have hbehind : behind''.length < cs.length :=
    (h.value hinner).trans ((length_of_afterColon hcolon).trans (length_of_readName hname))
  simp only at hread
  split at hread
  · rename_i hskip
    exact (h.fields hread).trans ((length_of_skipBlanks_eq_cons hskip).trans hbehind)
  · rename_i hskip
    cases hread
    exact (length_of_skipBlanks_eq_cons hskip).trans hbehind
  · cases hread

theorem shortens (fuel : Nat) : Shortens fuel := by
  induction fuel with
  | zero => exact ⟨(by cases ·), (by cases ·), (by cases ·)⟩
  | succ fuel ih => exact ⟨ih.value_succ, ih.items_succ, ih.fields_succ⟩

/-! ## Enough fuel -/

/-- One more unit than this much fuel changes nothing, where it is enough for the text. -/
structure Enough (fuel : Nat) : Prop where
  /-- The reader of values. -/
  value {cs : List Char} : 2 * cs.length ≤ fuel → readValue (fuel + 1) cs = readValue fuel cs
  /-- The reader of items. -/
  items {done : List Json} {cs : List Char} :
    2 * cs.length < fuel → readItems (fuel + 1) done cs = readItems fuel done cs
  /-- The reader of fields. -/
  fields {done : List (Text × Json)} {cs : List Char} :
    2 * cs.length < fuel → readFields (fuel + 1) done cs = readFields fuel done cs

theorem Enough.value_succ (h : Enough fuel) (hfuel : 2 * cs.length ≤ fuel + 1) :
    readValue (fuel + 2) cs = readValue (fuel + 1) cs := by
  rw [readValue, readValue]
  -- only a bracket hands the fuel on
  split
  case h_2 behind hskip =>
    have hbehind := length_of_skipBlanks_eq_cons hskip
    have hle := length_skipBlanks_le behind
    split
    · rfl
    · exact h.items (by omega)
  case h_3 behind hskip =>
    have hbehind := length_of_skipBlanks_eq_cons hskip
    have hle := length_skipBlanks_le behind
    split
    · rfl
    · exact h.fields (by omega)
  all_goals rfl

theorem Enough.items_succ (h : Enough fuel) {done : List Json} (hfuel : 2 * cs.length < fuel + 1) :
    readItems (fuel + 2) done cs = readItems (fuel + 1) done cs := by
  rw [readItems, readItems, h.value (Nat.lt_succ_iff.mp hfuel)]
  cases hread : readValue fuel cs with
  | error fault => rfl
  | ok read =>
    obtain ⟨item, behind⟩ := read
    have hbehind := (shortens fuel).value hread
    simp only [ok_bind]
    split
    · rename_i hskip
      have := length_of_skipBlanks_eq_cons hskip
      exact h.items (by omega)
    · rfl
    · rfl

theorem Enough.fields_succ (h : Enough fuel) {done : List (Text × Json)}
    (hfuel : 2 * cs.length < fuel + 1) :
    readFields (fuel + 2) done cs = readFields (fuel + 1) done cs := by
  rw [readFields, readFields]
  cases hname : readName cs with
  | error fault => rfl
  | ok read =>
    obtain ⟨name, behind⟩ := read
    simp only [ok_bind]
    cases hcolon : afterColon behind with
    | error fault => rfl
    | ok behind' =>
      have hshorter := (length_of_afterColon hcolon).trans (length_of_readName hname)
      simp only [ok_bind]
      rw [h.value (by omega)]
      cases hread : readValue fuel behind' with
      | error fault => rfl
      | ok read =>
        obtain ⟨inner, behind''⟩ := read
        have hbehind := (shortens fuel).value hread
        simp only [ok_bind]
        split
        · rename_i hskip
          have := length_of_skipBlanks_eq_cons hskip
          exact h.fields (by omega)
        · rfl
        · rfl

theorem enough (fuel : Nat) : Enough fuel := by
  induction fuel with
  | zero =>
    refine ⟨?_, fun h => absurd h (Nat.not_lt_zero _), fun h => absurd h (Nat.not_lt_zero _)⟩
    intro cs h
    obtain rfl : cs = [] := List.length_eq_zero_iff.mp (by omega)
    rfl
  | succ fuel ih => exact ⟨ih.value_succ, ih.items_succ, ih.fields_succ⟩

/-- A value is read with fuel for twice the length of its text as it is with any more. -/
theorem readValue_eq_of_le (h : 2 * cs.length ≤ fuel) :
    readValue fuel cs = readValue (2 * cs.length) cs := by
  induction fuel, h using Nat.le_induction with
  | base => rfl
  | succ fuel hle ih => rw [(enough fuel).value hle, ih]

end PredictionMarket.Json
