import PredictionMarket.Error
import PredictionMarket.Json.Basic
import PredictionMarket.Json.Malformed
import PredictionMarket.Number.Literal

/-!
# Reading JSON

`read` reads a text as one JSON value.  Every reader takes the text that is left
and answers with what it has read and with the text after it, or says why there
is nothing to read.

Of several fields of one name the last counts, so what is read is a `Document`.  The
escapes of a surrogate pair stand for one character, and the escape of a half that
stands alone for that half.
-/

namespace PredictionMarket.Json

/-- The text behind the blanks at its start. -/
def skipBlanks (cs : List Char) : List Char :=
  cs.dropWhile fun c => c == ' ' || c == '\t' || c == '\n' || c == '\r'

/-- The text behind a word. -/
def afterWord : List Char → List Char → Except Malformed (List Char)
  | [], cs => .ok cs
  | _ :: _, [] => .error .atEnd
  | w :: ws, c :: cs => if w = c then afterWord ws cs else .error (.unexpected (c :: cs))

/-! ## Texts -/

/-- The character that a letter stands for behind a backslash. -/
def unescaped? : Char → Option Char
  | '"' => some '"'
  | '\\' => some '\\'
  | '/' => some '/'
  | 'b' => some (Char.ofNat 8)
  | 'f' => some (Char.ofNat 12)
  | 'n' => some '\n'
  | 'r' => some '\r'
  | 't' => some '\t'
  | _ => none

/-- The number that four hexadecimal digits name. -/
def fourDigits? (cs : List Char) : Option Nat :=
  if cs.length = 4 then (cs.mapM (Number.digitValue? 16)).map (Number.naturalIn 16) else none

/-- The symbol with a code of sixteen bits. -/
def symbolOf (code : Nat) : Symbol :=
  if h : code - 0xD800 < 0x400 ∧ 0xD800 ≤ code then .high ⟨code - 0xD800, h.1⟩
  else if h : code - 0xDC00 < 0x400 ∧ 0xDC00 ≤ code then .low ⟨code - 0xDC00, h.1⟩
  else .char (Char.ofNat code)

/-- Reads characters and escapes up to the closing quote, behind those in `done`,
which are in reverse.  Surrogate pairs are still apart. -/
def readSymbols (done : List Symbol) : List Char → Except Malformed (List Symbol × List Char)
  | [] => .error .atEnd
  | '"' :: rest => .ok (done.reverse, rest)
  | '\\' :: 'u' :: a :: b :: c :: d :: rest =>
    match fourDigits? [a, b, c, d] with
    | some code => readSymbols (symbolOf code :: done) rest
    | none => .error (.unexpected (a :: b :: c :: d :: rest))
  | '\\' :: c :: rest =>
    match unescaped? c with
    | some u => readSymbols (.char u :: done) rest
    | none => .error (.unexpected (c :: rest))
  | c :: rest =>
    if c < ' ' ∨ c = '\\' then .error (.unexpected (c :: rest))
    else readSymbols (.char c :: done) rest

/-- Reads a text behind its opening quote. -/
def readText (cs : List Char) : Except Malformed (Text × List Char) := do
  let (us, rest) ← readSymbols [] cs
  return (Text.ofUnits us, rest)

/-! ## Numbers -/

/-- Reads one or more digits. -/
def readDigits (cs : List Char) : Except Malformed (List Char × List Char) :=
  let ds := cs.takeWhile Char.isDigit
  let rest := cs.dropWhile Char.isDigit
  if ds.isEmpty then .error (.ofRest rest) else .ok (ds, rest)

/-- Reads the digits before the point.  A zero stands alone. -/
def readWhole : List Char → Except Malformed (List Char × List Char)
  | '0' :: rest => .ok (['0'], rest)
  | cs => readDigits cs

/-- Reads the digits behind the point, if there is one. -/
def readPlaces : List Char → Except Malformed (List Char × List Char)
  | '.' :: rest => readDigits rest
  | rest => .ok ([], rest)

/-- Reads the digits of an exponent of the given sign. -/
def readPower (sign : Int) (cs : List Char) : Except Malformed (Int × List Char) := do
  let (ds, rest) ← readDigits cs
  return (sign * Nat.ofDigitChars 10 ds 0, rest)

/-- Reads the exponent, if there is one. -/
def readExponent : List Char → Except Malformed (Int × List Char)
  | [] => .ok (0, [])
  | e :: rest =>
    if e = 'e' ∨ e = 'E' then
      match rest with
      | '-' :: rest => readPower (-1) rest
      | '+' :: rest => readPower 1 rest
      | rest => readPower 1 rest
    else .ok (0, e :: rest)

/-- Reads a number without a sign. -/
def readUnsigned (cs : List Char) : Except Malformed (Number × List Char) := do
  let (whole, rest) ← readWhole cs
  let (places, rest) ← readPlaces rest
  let (exponent, rest) ← readExponent rest
  let digits := Nat.ofDigitChars 10 (whole ++ places) 0
  return (Number.ofDecimal digits (exponent - (places.length : Int)), rest)

/-- Reads a number behind its minus sign. -/
def readNegative (cs : List Char) : Except Malformed (Number × List Char) :=
  if (cs.takeWhile Char.isDigit).isEmpty then .error (.noDigits cs)
  else do
    let (x, rest) ← readUnsigned cs
    return (x.negate, rest)

/-! ## Values -/

/-- Reads a word that stands for a value. -/
def readWord (word : String) (value : Json) (cs : List Char) :
    Except Malformed (Json × List Char) := do
  let rest ← afterWord word.toList cs
  return (value, rest)

/-- Reads the name of a field. -/
def readName (cs : List Char) : Except Malformed (Text × List Char) :=
  match skipBlanks cs with
  | '"' :: rest => readText rest
  | rest => .error (.ofRest rest)

/-- The text behind the colon that follows a name. -/
def afterColon (cs : List Char) : Except Malformed (List Char) :=
  match skipBlanks cs with
  | ':' :: rest => .ok rest
  | rest => .error (.ofRest rest)

/-- The fields with a value for a name.  A new name goes to the front, and one that
is there keeps its place. -/
def withField (name : Text) (value : Json) (fields : List (Text × Json)) : List (Text × Json) :=
  if (fields.lookup name).isSome then
    fields.map fun field => if field.1 = name then (name, value) else field
  else (name, value) :: fields

mutual

/-- Reads a value.  The fuel is enough if it is twice the length of the text
(`readValue_eq_of_le`): a bracket takes one character, and an item takes one more
together with the comma or the bracket behind it. -/
def readValue (fuel : Nat) (cs : List Char) : Except Malformed (Json × List Char) :=
  match fuel with
  | 0 => .error .atEnd
  | fuel + 1 =>
    match skipBlanks cs with
    | '"' :: rest => do
      let (t, rest) ← readText rest
      return (text t, rest)
    | '[' :: rest =>
      match skipBlanks rest with
      | ']' :: rest => .ok (array [], rest)
      | rest => readItems fuel [] rest
    | '{' :: rest =>
      match skipBlanks rest with
      | '}' :: rest => .ok (object [], rest)
      | rest => readFields fuel [] rest
    | 't' :: rest => readWord "true" (bool true) ('t' :: rest)
    | 'f' :: rest => readWord "false" (bool false) ('f' :: rest)
    | 'n' :: rest => readWord "null" null ('n' :: rest)
    | '-' :: rest => do
      let (x, rest) ← readNegative rest
      return (number x, rest)
    | rest =>
      if (rest.takeWhile Char.isDigit).isEmpty then .error (.ofRest rest)
      else do
        let (x, rest) ← readUnsigned rest
        return (number x, rest)

/-- Reads the items of a sequence up to the closing bracket, behind those in
`done`, which are in reverse. -/
def readItems (fuel : Nat) (done : List Json) (cs : List Char) :
    Except Malformed (Json × List Char) :=
  match fuel with
  | 0 => .error .atEnd
  | fuel + 1 => do
    let (item, rest) ← readValue fuel cs
    match skipBlanks rest with
    | ',' :: rest => readItems fuel (item :: done) rest
    | ']' :: rest => .ok (array (item :: done).reverse, rest)
    | rest => .error (.ofRest rest)

/-- Reads the fields of an object up to the closing bracket, behind those in
`done`, which are in reverse. -/
def readFields (fuel : Nat) (done : List (Text × Json)) (cs : List Char) :
    Except Malformed (Json × List Char) :=
  match fuel with
  | 0 => .error .atEnd
  | fuel + 1 => do
    let (name, rest) ← readName cs
    let rest ← afterColon rest
    let (value, rest) ← readValue fuel rest
    let done := withField name value done
    match skipBlanks rest with
    | ',' :: rest => readFields fuel done rest
    | '}' :: rest => .ok (object done.reverse, rest)
    | rest => .error (.ofRest rest)

end

/-! ## Distinct names -/

/-- Fields whose names differ and whose values can be read. -/
def Readable (fields : List (Text × Json)) : Prop :=
  (fields.map Prod.fst).Nodup ∧ ∀ field ∈ fields, field.2.Distinct

variable {name : Text} {value : Json} {fields : List (Text × Json)}

/-- A new value for a name that is there. -/
theorem Readable.replace (h : Readable fields) (hvalue : value.Distinct) :
    Readable (fields.map fun field => if field.1 = name then (name, value) else field) := by
  constructor
  · have hsame : (Prod.fst ∘ fun field : Text × Json =>
        if field.1 = name then (name, value) else field) = Prod.fst := by
      funext field
      by_cases hname : field.1 = name
      · simp [hname]
      · simp [hname]
    rw [List.map_map, hsame]
    exact h.1
  · intro field hfield
    obtain ⟨old, hold, rfl⟩ := List.mem_map.mp hfield
    split
    · exact hvalue
    · exact h.2 old hold

/-- A value for a name that is not there yet. -/
theorem Readable.cons (h : Readable fields) (hvalue : value.Distinct)
    (hnew : ¬ (fields.lookup name).isSome) : Readable ((name, value) :: fields) := by
  constructor
  · refine List.nodup_cons.mpr ⟨?_, h.1⟩
    intro hmem
    obtain ⟨field, hfield, hname⟩ := List.mem_map.mp hmem
    exact hnew (List.lookup_isSome_iff.mpr ⟨field, hfield, by simp [hname]⟩)
  · intro field hfield
    rcases List.mem_cons.mp hfield with rfl | hfield
    · exact hvalue
    · exact h.2 field hfield

theorem Readable.add (h : Readable fields) (hvalue : value.Distinct) :
    Readable (withField name value fields) := by
  unfold withField
  split
  · exact h.replace hvalue
  · exact h.cons hvalue ‹_›

theorem Readable.distinct (h : Readable fields) : (object fields.reverse).Distinct := by
  refine ⟨?_, distinctFields_iff.mpr fun field hfield => h.2 field (List.mem_reverse.mp hfield)⟩
  rw [List.map_reverse]
  exact (List.reverse_perm _).nodup_iff.mpr h.1

/-- What the readers read with this much fuel names no field twice, if what they have read
before does not. -/
structure ReadsDistinct (fuel : Nat) : Prop where
  /-- The reader of values. -/
  value {cs rest : List Char} {value : Json} :
    readValue fuel cs = .ok (value, rest) → value.Distinct
  /-- The reader of items. -/
  items {done : List Json} {cs rest : List Char} {value : Json} :
    (∀ item ∈ done, item.Distinct) → readItems fuel done cs = .ok (value, rest) → value.Distinct
  /-- The reader of fields. -/
  fields {done : List (Text × Json)} {cs rest : List Char} {value : Json} :
    Readable done → readFields fuel done cs = .ok (value, rest) → value.Distinct

variable {fuel : Nat} {cs rest : List Char}

theorem eq_of_readWord {word : String} {meant : Json}
    (h : readWord word meant cs = .ok (value, rest)) : value = meant := by
  obtain ⟨left, -, h⟩ := bind_eq_ok_iff.mp h
  cases h
  rfl

theorem ReadsDistinct.value_succ (h : ReadsDistinct fuel)
    (hread : readValue (fuel + 1) cs = .ok (value, rest)) : value.Distinct := by
  rw [readValue] at hread
  split at hread
  · obtain ⟨⟨t, rest'⟩, -, hread⟩ := bind_eq_ok_iff.mp hread
    cases hread
    trivial
  · split at hread
    · cases hread
      trivial
    · exact h.items (by simp) hread
  · split at hread
    · cases hread
      exact ⟨List.nodup_nil, trivial⟩
    · exact h.fields ⟨by simp, by simp⟩ hread
  · obtain rfl := eq_of_readWord hread
    trivial
  · obtain rfl := eq_of_readWord hread
    trivial
  · obtain rfl := eq_of_readWord hread
    trivial
  · obtain ⟨⟨x, rest'⟩, -, hread⟩ := bind_eq_ok_iff.mp hread
    cases hread
    trivial
  · split at hread
    · cases hread
    · obtain ⟨⟨x, rest'⟩, -, hread⟩ := bind_eq_ok_iff.mp hread
      cases hread
      trivial

theorem ReadsDistinct.items_succ (h : ReadsDistinct fuel) {done : List Json}
    (hdone : ∀ item ∈ done, item.Distinct)
    (hread : readItems (fuel + 1) done cs = .ok (value, rest)) : value.Distinct := by
  rw [readItems] at hread
  obtain ⟨⟨item, rest'⟩, hitem, hread⟩ := bind_eq_ok_iff.mp hread
  have hdone' : ∀ i ∈ item :: done, i.Distinct := List.forall_mem_cons.mpr ⟨h.value hitem, hdone⟩
  simp only at hread
  split at hread
  · exact h.items hdone' hread
  · cases hread
    exact distinctItems_iff.mpr fun i hi => hdone' i (List.mem_reverse.mp hi)
  · cases hread

theorem ReadsDistinct.fields_succ (h : ReadsDistinct fuel) (hdone : Readable fields)
    (hread : readFields (fuel + 1) fields cs = .ok (value, rest)) : value.Distinct := by
  rw [readFields] at hread
  obtain ⟨⟨name, behind⟩, -, hread⟩ := bind_eq_ok_iff.mp hread
  obtain ⟨behind', -, hread⟩ := bind_eq_ok_iff.mp hread
  obtain ⟨⟨inner, behind''⟩, hinner, hread⟩ := bind_eq_ok_iff.mp hread
  have hdone' : Readable (withField name inner fields) := hdone.add (h.value hinner)
  simp only at hread
  split at hread
  · exact h.fields hdone' hread
  · cases hread
    exact hdone'.distinct
  · cases hread

theorem readsDistinct (fuel : Nat) : ReadsDistinct fuel := by
  induction fuel with
  | zero => exact ⟨(by cases ·), fun _ => (by cases ·), fun _ => (by cases ·)⟩
  | succ fuel ih => exact ⟨ih.value_succ, ih.items_succ, ih.fields_succ⟩

/-! ## Texts of one value -/

/-- Reads a text as one value. -/
def read (source : String) : Except Malformed Document :=
  let cs := source.toList
  match h : readValue (2 * cs.length) cs with
  | .ok (value, rest) =>
    match skipBlanks rest with
    | [] => .ok ⟨value, (readsDistinct _).value h⟩
    | rest => .error (.unexpected rest)
  | .error fault => .error fault

end PredictionMarket.Json
