/-!
# Percent escapes

In the text of a request target an escape `%XX` stands for a byte, and every
other character for its own bytes of UTF-8.  `percentDecode?` puts the bytes
together and reads them as UTF-8.  There is no answer where an escape is broken
or the bytes are not UTF-8.  `percentEncode` writes characters as escapes.
-/

namespace PredictionMarket.Text

/-- The value of a hexadecimal digit, given as its byte of ASCII. -/
def hexValue? (b : UInt8) : Option Nat :=
  let n := b.toNat
  if 48 ≤ n ∧ n ≤ 57 then some (n - 48)
  else if 65 ≤ n ∧ n ≤ 70 then some (n - 55)
  else if 97 ≤ n ∧ n ≤ 102 then some (n - 87)
  else none

/-- The bytes that are left when every escape becomes its byte. -/
def unescape? : List UInt8 → Option (List UInt8)
  | [] => some []
  | b :: bs =>
    if b = 37 then
      match bs with
      | high :: low :: rest =>
        match hexValue? high, hexValue? low, unescape? rest with
        | some h, some l, some bytes => some (UInt8.ofNat (16 * h + l) :: bytes)
        | _, _, _ => none
      | _ => none
    else (unescape? bs).map (b :: ·)

/-- The bytes that are left when every escape becomes its byte and a broken one
stands for itself. -/
def unescape : List UInt8 → List UInt8
  | [] => []
  | b :: high :: low :: rest =>
    match hexValue? high, hexValue? low with
    | some h, some l =>
      if b = 37 then UInt8.ofNat (16 * h + l) :: unescape rest
      else b :: unescape (high :: low :: rest)
    | _, _ => b :: unescape (high :: low :: rest)
  | b :: bs => b :: unescape bs

/-- The text behind the escapes. -/
def percentDecode? (s : String) : Option String :=
  (unescape? s.toUTF8.data.toList).bind fun bytes => String.fromUTF8? ⟨bytes.toArray⟩

/-- The escape of a byte, with digits in capitals. -/
def percentEscape (b : UInt8) : List Char :=
  '%' :: ((Nat.toDigits 16 (b.toNat / 16)) ++ (Nat.toDigits 16 (b.toNat % 16))).map Char.toUpper

/-- The text with escapes for the bytes of all characters outside `plain`. -/
def percentEncode (plain : Char → Bool) (cs : List Char) : List Char :=
  cs.flatMap fun c =>
    if plain c then [c] else c.toString.toUTF8.data.toList.flatMap percentEscape

end PredictionMarket.Text
