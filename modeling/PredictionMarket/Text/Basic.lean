/-!
# Texts

A text is a sequence of symbols.  A symbol is a character or one half of a
surrogate pair without the other, which JSON can spell by an escape although no
character stands for it.  A first half never stands right before a second one, as
the two would be a character, so no text can be had in two ways.

`ofString` makes the text of a string, and `string?` gives the string back.  It
refuses just the texts with a half in them: `string?_eq_some_iff`.
-/

namespace PredictionMarket

/-- What a text consists of. -/
inductive Symbol where
  /-- A character. -/
  | char (c : Char)
  /-- The first half of a surrogate pair, with the code `0xD800 + n`. -/
  | high (n : Fin 0x400)
  /-- The second half of a surrogate pair, with the code `0xDC00 + n`. -/
  | low (n : Fin 0x400)
deriving DecidableEq, Repr

namespace Symbol

/-- The characters of a sequence of symbols, if it has no halves. -/
def chars? : List Symbol → Option (List Char)
  | [] => some []
  | char c :: symbols => (chars? symbols).map (c :: ·)
  | high _ :: _ | low _ :: _ => none

/-- The character, or the replacement character for a half. -/
def legible : Symbol → Char
  | char c => c
  | high _ | low _ => Char.ofNat 0xFFFD

/-- The first symbol and the second one are a character when they stand together. -/
def Pairs : Symbol → Symbol → Prop
  | high _, low _ => True
  | _, _ => False

instance (a b : Symbol) : Decidable (Pairs a b) := by
  unfold Pairs
  split <;> infer_instance

/-- No symbol is a character together with the one behind it. -/
def Apart : List Symbol → Prop
  | a :: b :: symbols => ¬ Pairs a b ∧ Apart (b :: symbols)
  | [_] | [] => True

theorem chars?_eq_some_iff {symbols : List Symbol} {cs : List Char} :
    chars? symbols = some cs ↔ symbols = cs.map char := by
  induction symbols generalizing cs with
  | nil => cases cs <;> simp [chars?]
  | cons a symbols ih =>
    cases a with
    | high n => cases cs <;> simp [chars?]
    | low n => cases cs <;> simp [chars?]
    | char c =>
      cases cs with
      | nil => simp [chars?]
      | cons d cs =>
        simp only [chars?, Option.map_eq_some_iff, ih, List.cons.injEq, List.map_cons, char.injEq]
        exact ⟨fun ⟨_, hrest, hc, heq⟩ => ⟨hc, heq ▸ hrest⟩, fun ⟨hc, hrest⟩ => ⟨cs, hrest, hc, rfl⟩⟩

theorem pairs_iff {a b : Symbol} : Pairs a b ↔ ∃ m n, a = high m ∧ b = low n := by
  constructor
  · intro h
    unfold Pairs at h
    split at h
    · exact ⟨_, _, rfl, rfl⟩
    · exact absurd h id
  · rintro ⟨m, n, rfl, rfl⟩
    trivial

/-- A symbol in front has to stay apart from the first one only. -/
theorem apart_cons {a : Symbol} {symbols : List Symbol} (h : Apart symbols)
    (hfirst : ∀ b, symbols.head? = some b → ¬ Pairs a b) : Apart (a :: symbols) := by
  cases symbols with
  | nil => trivial
  | cons b symbols => exact ⟨hfirst b rfl, h⟩

theorem Apart.tail {a : Symbol} {symbols : List Symbol} (h : Apart (a :: symbols)) :
    Apart symbols := by
  cases symbols with
  | nil => trivial
  | cons b symbols => exact h.2

/-- A character stays apart from whatever is behind it. -/
theorem apart_char_cons (c : Char) {symbols : List Symbol} (h : Apart symbols) :
    Apart (char c :: symbols) :=
  apart_cons h fun _ _ => id

theorem apart_map_char (cs : List Char) : Apart (cs.map char) := by
  induction cs with
  | nil => trivial
  | cons c cs ih => exact apart_char_cons c ih

end Symbol

/-- A sequence of symbols that stay apart. -/
structure Text where
  /-- The symbols. -/
  symbols : List Symbol
  /-- No two of them are a character. -/
  apart : Symbol.Apart symbols
deriving DecidableEq, Repr

namespace Text

/-- The text of a string. -/
def ofString (s : String) : Text := ⟨s.toList.map Symbol.char, Symbol.apart_map_char _⟩

instance : Inhabited Text := ⟨ofString ""⟩

instance : Coe String Text := ⟨ofString⟩

/-- The text has no symbols. -/
def isEmpty (t : Text) : Bool := t.symbols.isEmpty

/-- The characters of a text, if it has no halves. -/
def chars? (t : Text) : Option (List Char) := Symbol.chars? t.symbols

/-- The string that a text is, if it has no halves. -/
def string? (t : Text) : Option String := t.chars?.map String.ofList

/-- The text as a string, with the replacement character for every half. -/
def legible (t : Text) : String := String.ofList (t.symbols.map Symbol.legible)

/-- The length in bytes of UTF-8, where the replacement character stands for
every half. -/
def utf8Size (t : Text) : Nat := t.legible.utf8ByteSize

theorem chars?_eq_some_iff {t : Text} {cs : List Char} :
    t.chars? = some cs ↔ t.symbols = cs.map Symbol.char :=
  Symbol.chars?_eq_some_iff

@[simp] theorem chars?_ofString (s : String) : (ofString s).chars? = some s.toList :=
  chars?_eq_some_iff.mpr rfl

theorem string?_eq_some_iff {t : Text} {s : String} : t.string? = some s ↔ t = ofString s := by
  obtain ⟨symbols, apart⟩ := t
  simp only [string?, Option.map_eq_some_iff, chars?_eq_some_iff, ofString, Text.mk.injEq]
  refine ⟨?_, fun h => ⟨s.toList, h, String.ofList_toList⟩⟩
  rintro ⟨cs, h, rfl⟩
  rw [h, String.toList_ofList]

/-- A string reads as it is. -/
@[simp] theorem legible_ofString (s : String) : (ofString s).legible = s := by
  simp [legible, ofString, Function.comp_def, Symbol.legible]

theorem ofString_injective {s s' : String} (h : ofString s = ofString s') : s = s' := by
  rw [← legible_ofString s, h, legible_ofString]

@[simp] theorem utf8Size_ofString (s : String) : (ofString s).utf8Size = s.utf8ByteSize := by
  rw [utf8Size, legible_ofString]

end Text

end PredictionMarket
