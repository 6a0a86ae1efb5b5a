import PredictionMarket.Text.Basic

/-!
# Units of sixteen bits

Positions in a text count units of sixteen bits.  A character beyond the first
`65536` takes two of them, the halves of its surrogate pair.  `units` takes such
characters apart and `joined` puts pairs together, so that `joined_units` gives
the characters back.
-/

namespace PredictionMarket.Text

theorem char_toNat_lt (c : Char) : c.toNat < 0x110000 := by
  have hvalid := c.valid
  simp only [UInt32.isValidChar, Nat.isValidChar] at hvalid
  simp only [Char.toNat]
  omega

/-- The units that a character takes. -/
def unitsOf (c : Char) : List Symbol :=
  if c.toNat < 0x10000 then [.char c]
  else
    [.high ⟨(c.toNat - 0x10000) / 0x400, by have := char_toNat_lt c; omega⟩,
      .low ⟨(c.toNat - 0x10000) % 0x400, by omega⟩]

/-- The units that a sequence of characters takes. -/
def units (cs : List Char) : List Symbol := cs.flatMap unitsOf

/-- The character that a surrogate pair stands for. -/
def paired (high low : Fin 0x400) : Char := Char.ofNat (0x10000 + high * 0x400 + low)

/-- The symbols that a sequence of units stands for. -/
def joined : List Symbol → List Symbol
  | .high high :: .low low :: rest => .char (paired high low) :: joined rest
  | a :: rest => a :: joined rest
  | [] => []

/-- A second half in front comes from a second half in front. -/
theorem head?_of_joined {us : List Symbol} {n : Fin 0x400}
    (h : (joined us).head? = some (.low n)) : us.head? = some (.low n) := by
  unfold joined at h
  split at h
  · exact absurd h (by simp)
  · exact h
  · exact h

/-- What has been put together stays apart. -/
theorem apart_joined (us : List Symbol) : Symbol.Apart (joined us) := by
  induction us using joined.induct with
  | case1 high low rest ih => exact Symbol.apart_char_cons _ ih
  | case2 a rest hpair ih =>
    rw [joined.eq_2 a rest hpair]
    refine Symbol.apart_cons ih ?_
    intro b hb hpairs
    obtain ⟨m, n, rfl, rfl⟩ := Symbol.pairs_iff.mp hpairs
    obtain ⟨rest', rfl⟩ := List.head?_eq_some_iff.mp (head?_of_joined hb)
    exact hpair m n rest' rfl rfl
  | case3 => trivial

/-- What stays apart has nothing to be put together. -/
theorem joined_of_apart {us : List Symbol} (h : Symbol.Apart us) : joined us = us := by
  induction us using joined.induct with
  | case1 high low rest => exact absurd trivial h.1
  | case2 a rest hpair ih => rw [joined.eq_2 a rest hpair, ih h.tail]
  | case3 => rfl

/-- The text that a sequence of units stands for. -/
def ofUnits (us : List Symbol) : Text := ⟨joined us, apart_joined us⟩

/-- Every text is the text of its own symbols. -/
theorem ofUnits_symbols (t : Text) : ofUnits t.symbols = t := by
  obtain ⟨symbols, apart⟩ := t
  simp only [ofUnits, joined_of_apart apart]

theorem joined_unitsOf_append (c : Char) (rest : List Symbol) :
    joined (unitsOf c ++ rest) = .char c :: joined rest := by
  rw [unitsOf]
  split
  · simp [joined]
  · have hsum : 0x10000 + (c.toNat - 0x10000) / 0x400 * 0x400 + (c.toNat - 0x10000) % 0x400 =
        c.toNat := by omega
    simp only [List.cons_append, List.nil_append, joined, paired]
    rw [hsum, Char.ofNat_toNat]

/-- What is taken apart into units can be put together again. -/
theorem joined_units (cs : List Char) : joined (units cs) = cs.map Symbol.char := by
  induction cs with
  | nil => rfl
  | cons c cs ih =>
    rw [List.map_cons, ← ih]
    exact joined_unitsOf_append c (units cs)

end PredictionMarket.Text
