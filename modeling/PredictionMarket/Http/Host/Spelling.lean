/-!
# Spelling

A label that begins with `xn--` spells characters beyond ASCII by digits and letters,
and `spelled?` reads it.
-/

namespace PredictionMarket.Http.Host

/-- The value of a digit of base 36, in which the letters come first. -/
def digit36? (c : Char) : Option Nat :=
  if c.isDigit then some (c.toNat - '0'.toNat + 26)
  else if 'a' ≤ c ∧ c ≤ 'z' then some (c.toNat - 'a'.toNat)
  else none

/-- Divides by 35 as often as it takes to get down to 455, and counts 36 for each
time. -/
def damped (delta : Nat) : Nat × Nat :=
  if _h : 455 < delta then
    let (rest, count) := damped (delta / 35)
    (rest, count + 36)
  else (delta, 0)
termination_by delta
decreasing_by exact Nat.div_lt_self (by omega) (by decide)

/-- The bias after a distance, with `size` characters and for the first time or not. -/
def nextBias (distance size : Nat) (first : Bool) : Nat :=
  let halved := if first then distance / 700 else distance / 2
  let (rest, count) := damped (halved + halved / size)
  count + 36 * rest / (rest + 38)

/-- Where the reading of a spelled label stands. -/
structure Spelling where
  /-- The characters so far. -/
  read : List Char
  /-- The code of the last character that was put in. -/
  code : Nat
  /-- The place up to which it has been looked at. -/
  place : Nat
  /-- The place and the rest of a distance that is being read. -/
  sum : Nat
  /-- The weight of the next digit. -/
  weight : Nat
  /-- How far the next digit is on. -/
  step : Nat
  /-- The bias of the thresholds. -/
  bias : Nat

/-- The greatest number that a distance or a weight may be. -/
def Spelling.limit : Nat := 0x7FFFFFFF

/-- Reads the digits of a spelled label.  A digit below its threshold ends a
distance, and a character is put in there. -/
def Spelling.digits? (s : Spelling) : List Char → Option (List Char)
  | [] => if s.step = 36 then some s.read else none
  | c :: cs =>
    match digit36? c with
    | none => none
    | some d =>
      let threshold := if s.step ≤ s.bias then 1 else if s.bias + 26 ≤ s.step then 26
        else s.step - s.bias
      let sum := s.sum + d * s.weight
      let weight := s.weight * (36 - threshold)
      if limit < sum then none
      else if threshold ≤ d then
        if limit < weight then none
        else digits? { s with sum := sum, weight := weight, step := s.step + 36 } cs
      else
        let size := s.read.length + 1
        let code := s.code + sum / size
        let place := sum % size
        if code.isValidChar then
          digits? {
            read := s.read.take place ++ Char.ofNat code :: s.read.drop place
            code := code
            place := place + 1
            sum := place + 1
            weight := 1
            step := 36
            bias := nextBias (sum - s.place) size (s.place = 0)
          } cs
        else none

/-- The characters that a label spells behind `xn--`.  Those of ASCII stand as they
are before the last hyphen. -/
def spelled? (cs : List Char) : Option (List Char) :=
  let digits := (cs.reverse.takeWhile (· ≠ '-')).reverse
  let plain := cs.take (cs.length - digits.length - 1)
  Spelling.digits? ⟨plain, 0x80, 0, 0, 1, 36, 72⟩ digits

end PredictionMarket.Http.Host
