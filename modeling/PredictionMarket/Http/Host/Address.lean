import PredictionMarket.Number.Literal

/-!
# Numeric addresses

The texts that name a host by number.  An address of version 4 has up to four
numbers between points, each in base 10, 8 or 16, where the last one fills the bytes
that are left.  An address of version 6 has eight groups of up to four hexadecimal
digits between colons.  Two colons stand once for the groups that are left out, and
an address of version 4 may take the place of the last two.
-/

namespace PredictionMarket.Http.Host

/-! ## Version 4 -/

/-- The number that digits of a base name, where no digits name zero. -/
def numberIn? (base : Nat) (cs : List Char) : Option Nat :=
  (cs.mapM (Number.digitValue? base)).map (Number.naturalIn base)

/-- The number that a part of an address names. -/
def part? : List Char → Option Nat
  | [] => none
  | ['0'] => some 0
  | '0' :: c :: cs => if c = 'x' ∨ c = 'X' then numberIn? 16 cs else numberIn? 8 (c :: cs)
  | cs => numberIn? 10 cs

/-- The parts of a name between points, without an empty one at its end. -/
def parts (name : List Char) : List (List Char) :=
  let ps := name.splitOn '.'
  if 1 < ps.length ∧ ps.getLast? = some [] then ps.dropLast else ps

/-- The name ends in a number, so that it has to be an address. -/
def endsInNumber (name : List Char) : Bool :=
  match (parts name).getLast? with
  | some last => (!last.isEmpty && last.all Char.isDigit) || (part? last).isSome
  | none => false

/-- The name is an address of version 4. -/
def isAddress4 (name : List Char) : Bool :=
  match (parts name).mapM part? with
  | some ns =>
    ns.length ≤ 4 && ns.dropLast.all (· ≤ 255) && ns.getLastD 0 < Nat.pow 256 (5 - ns.length)
  | none => false

/-! ## Version 6 -/

/-- A number up to 255 in decimal digits, without leading zeros. -/
def isByte (cs : List Char) : Bool :=
  match Text.natural? cs with
  | some n => n ≤ 255 && Text.decimal n == cs
  | none => false

/-- Four bytes between points. -/
def isDotted (cs : List Char) : Bool :=
  let bytes := cs.splitOn '.'
  bytes.length == 4 && bytes.all isByte

/-- The groups of an address of version 6 fill `room` places.  They may leave some
out if `short`, that is, behind two colons. -/
def fills (short : Bool) : Nat → List Char → Bool
  | room, [] => short || room == 0
  | 0, _ :: _ => false
  | room + 1, c :: cs =>
    if c = ':' then !short && fills true room cs
    else
      let digits := ((c :: cs).take 4).takeWhile fun d => (Number.digitValue? 16 d).isSome
      match (c :: cs).drop digits.length with
      | [] => fills short room []
      | '.' :: _ =>
        !digits.isEmpty && isDotted (c :: cs) && (room == 1 || (short && 1 ≤ room))
      | ':' :: rest => !digits.isEmpty && !rest.isEmpty && fills short room rest
      | _ => false

/-- The text is an address of version 6. -/
def isAddress6 : List Char → Bool
  | ':' :: ':' :: cs => fills true 7 cs
  | ':' :: _ => false
  | cs => fills false 8 cs

end PredictionMarket.Http.Host
