import Mathlib
import PredictionMarket.Text.Percent

/-!
# Escapes are read back

A text that is written with escapes and read again is the same text
(`percentDecode?_percentEncode`), whichever characters stand for themselves, as long as they
are of ASCII and the sign of an escape is not among them.

The reader works on bytes, so the proof does too.  `unescape?_escape` is the step for one
escape, `unescape?_escapes` and `unescape?_plain` are the two steps for one character, and
`unescape?_percentEncode` goes along the characters of the text.
-/

namespace PredictionMarket.Text

/-- The bytes of characters in UTF-8. -/
def utf8 (cs : List Char) : List UInt8 := cs.flatMap String.utf8EncodeChar

@[simp] theorem utf8_nil : utf8 [] = [] := rfl

@[simp] theorem utf8_cons (c : Char) (cs : List Char) :
    utf8 (c :: cs) = String.utf8EncodeChar c ++ utf8 cs := rfl

@[simp] theorem utf8_append (cs ds : List Char) : utf8 (cs ++ ds) = utf8 cs ++ utf8 ds :=
  List.flatMap_append

theorem toUTF8_ofList (cs : List Char) : (String.ofList cs).toUTF8.data.toList = utf8 cs := by
  show cs.utf8Encode.data.toList = utf8 cs
  rw [List.utf8Encode, List.toList_data_toByteArray, utf8]

/-- A character of ASCII is its own byte. -/
theorem utf8EncodeChar_of_lt {c : Char} (h : c.toNat < 128) :
    String.utf8EncodeChar c = [UInt8.ofNat c.toNat] := by
  have hle : c.val.toNat ≤ 127 := Nat.le_of_lt_succ h
  simp only [String.utf8EncodeChar, if_pos hle]
  rfl

/-- The bytes of a text are the text. -/
theorem fromUTF8?_utf8 (cs : List Char) :
    String.fromUTF8? ⟨(utf8 cs).toArray⟩ = some (String.ofList cs) := by
  have hbytes : (⟨(utf8 cs).toArray⟩ : ByteArray) = (String.ofList cs).toByteArray := by
    rw [String.toByteArray_ofList]
    apply ByteArray.ext
    rw [List.utf8Encode, List.data_toByteArray, utf8]
  rw [hbytes, String.fromUTF8?, dif_pos (String.ofList cs).isValidUTF8]
  rfl

/-! ## One byte -/

/-- The digit of an escape. -/
def escapeDigit (n : Nat) : Char := n.digitChar.toUpper

theorem escapeDigit_lt : ∀ n < 16, (escapeDigit n).toNat < 128 := by decide

theorem hexValue?_escapeDigit : ∀ n < 16,
    hexValue? (UInt8.ofNat (escapeDigit n).toNat) = some n := by decide

theorem percentEscape_eq (b : UInt8) :
    percentEscape b = ['%', escapeDigit (b.toNat / 16), escapeDigit (b.toNat % 16)] := by
  have hb : b.toNat < 256 := b.toNat_lt
  rw [percentEscape, Nat.toDigits_of_lt_base (by omega), Nat.toDigits_of_lt_base (by omega)]
  rfl

/-- The escape of a byte is read back as the byte. -/
theorem unescape?_escape (b : UInt8) (rest : List UInt8) :
    unescape? (utf8 (percentEscape b) ++ rest) = (unescape? rest).map (b :: ·) := by
  have hb : b.toNat < 256 := b.toNat_lt
  have hhigh : b.toNat / 16 < 16 := by omega
  have hlow : b.toNat % 16 < 16 := by omega
  have hsum : UInt8.ofNat (16 * (b.toNat / 16) + b.toNat % 16) = b := by
    rw [Nat.div_add_mod, UInt8.ofNat_toNat]
  rw [percentEscape_eq, utf8_cons, utf8_cons, utf8_cons, utf8_nil,
    utf8EncodeChar_of_lt (by decide), utf8EncodeChar_of_lt (escapeDigit_lt _ hhigh),
    utf8EncodeChar_of_lt (escapeDigit_lt _ hlow)]
  show unescape? (37 :: UInt8.ofNat _ :: UInt8.ofNat _ :: rest) = _
  rw [unescape?, if_pos rfl]
  simp only [hexValue?_escapeDigit _ hhigh, hexValue?_escapeDigit _ hlow]
  cases unescape? rest with
  | none => rfl
  | some bytes => simp [hsum]

theorem unescape?_escapes (bytes rest : List UInt8) :
    unescape? (utf8 (bytes.flatMap percentEscape) ++ rest) =
      (unescape? rest).map (bytes ++ ·) := by
  induction bytes with
  | nil => simp
  | cons b bytes ih =>
    rw [List.flatMap_cons, utf8_append, List.append_assoc, unescape?_escape, ih,
      Option.map_map]
    rfl

/-! ## Texts -/

/-- Characters of ASCII that open no escape. -/
def Plain (plain : Char → Bool) : Prop := ∀ c, plain c → c.toNat < 128 ∧ c ≠ '%'

theorem percentEncode_cons (plain : Char → Bool) (c : Char) (cs : List Char) :
    percentEncode plain (c :: cs) =
      (if plain c then [c] else (String.utf8EncodeChar c).flatMap percentEscape) ++
        percentEncode plain cs := by
  have hbytes : c.toString.toUTF8.data.toList = String.utf8EncodeChar c := by
    have hchar : c.toString = String.ofList [c] := rfl
    rw [hchar, toUTF8_ofList, utf8_cons, utf8_nil, List.append_nil]
  rw [percentEncode, List.flatMap_cons, hbytes]
  rfl

/-- A character that stands for itself is read as it is. -/
theorem unescape?_plain {c : Char} (h : c.toNat < 128) (hc : c ≠ '%') (rest : List UInt8) :
    unescape? (String.utf8EncodeChar c ++ rest) =
      (unescape? rest).map (String.utf8EncodeChar c ++ ·) := by
  have hbyte : UInt8.ofNat c.toNat ≠ 37 := by
    intro heq
    have hnat := congrArg UInt8.toNat heq
    rw [UInt8.toNat_ofNat_of_lt' (h.trans (by decide))] at hnat
    exact hc (Char.ext (UInt32.toNat_inj.mp hnat))
  rw [utf8EncodeChar_of_lt h, List.singleton_append, unescape?.eq_def]
  simp only [if_neg hbyte]
  rfl

theorem unescape?_percentEncode {plain : Char → Bool} (hplain : Plain plain) (cs : List Char) :
    unescape? (utf8 (percentEncode plain cs)) = some (utf8 cs) := by
  induction cs with
  | nil => rfl
  | cons c cs ih =>
    rw [percentEncode_cons, utf8_append]
    by_cases hc : plain c
    · obtain ⟨hascii, hsign⟩ := hplain c hc
      rw [if_pos hc, utf8_cons, utf8_nil, List.append_nil, unescape?_plain hascii hsign, ih]
      rfl
    · rw [if_neg hc, unescape?_escapes, ih]
      rfl

/-- What is written with escapes is read back. -/
theorem percentDecode?_percentEncode {plain : Char → Bool} (hplain : Plain plain)
    (cs : List Char) :
    percentDecode? (String.ofList (percentEncode plain cs)) = some (String.ofList cs) := by
  rw [percentDecode?, toUTF8_ofList, unescape?_percentEncode hplain, Option.bind_some,
    fromUTF8?_utf8]

/-- What is written with escapes has signs of escapes and their digits beside the characters
that stand for themselves. -/
theorem of_mem_percentEncode {plain : Char → Bool} {c : Char} {cs : List Char}
    (h : c ∈ percentEncode plain cs) : plain c ∨ c = '%' ∨ ∃ n < 16, c = escapeDigit n := by
  induction cs with
  | nil => exact absurd h (by simp [percentEncode])
  | cons d cs ih =>
    rw [percentEncode_cons, List.mem_append] at h
    rcases h with hhead | htail
    · by_cases hd : plain d
      · rw [if_pos hd, List.mem_singleton] at hhead
        exact .inl (hhead ▸ hd)
      · rw [if_neg hd, List.mem_flatMap] at hhead
        obtain ⟨b, -, hb⟩ := hhead
        have hlt : b.toNat < 256 := b.toNat_lt
        rw [percentEscape_eq] at hb
        simp only [List.mem_cons, List.not_mem_nil, or_false] at hb
        rcases hb with hsign | hhigh | hlow
        · exact .inr (.inl hsign)
        · exact .inr (.inr ⟨_, by omega, hhigh⟩)
        · exact .inr (.inr ⟨_, by omega, hlow⟩)
    · exact ih htail

end PredictionMarket.Text
