import PredictionMarket.Http.Host.Domain
import PredictionMarket.Text.Percent

/-!
# Hosts

Who is asked, as far as a target names it.  The service answers whatever the host
is, so a host only has to be one.  It is an address of version 6 in brackets, a
domain or an address of version 4, or, where the scheme is not one of the web, any
text without the characters that divide a target.
-/

namespace PredictionMarket.Http.Host

/-- The character must not stand in any host. -/
def dividesTarget (c : Char) : Bool :=
  c.toNat == 0 ||
    ['\t', '\n', '\r', ' ', '#', '/', ':', '<', '>', '?', '@', '[', '\\', ']', '^', '|'].contains c

/-- The domain behind the escapes of a host, if its bytes are UTF-8. -/
def unescaped? (cs : List Char) : Option (List Char) :=
  let bytes := Text.unescape (String.ofList cs).toUTF8.data.toList
  (String.fromUTF8? ⟨bytes.toArray⟩).map String.toList

/-- The text is a host, for a scheme of the web or for another one. -/
def isHost (ofWeb : Bool) (cs : List Char) : Bool :=
  match cs with
  | '[' :: rest => rest.getLast? == some ']' && isAddress6 rest.dropLast
  | _ =>
    if ofWeb then
      match unescaped? cs with
      | some name => isDomain name
      | none => false
    else !cs.any dividesTarget

/-- The text before the first colon outside brackets, and the text behind it. -/
def splitPort (inside : Bool) : List Char → List Char × Option (List Char)
  | [] => ([], none)
  | c :: cs =>
    if c = ':' ∧ inside = false then ([], some cs)
    else
      let (host, port) := splitPort (if c = '[' then true else if c = ']' then false else inside) cs
      (c :: host, port)

/-- The text is a port, or empty. -/
def isPort (cs : List Char) : Bool := cs.all Char.isDigit && Nat.ofDigitChars 10 cs 0 ≤ 65535

/-- The text is a host with a port or without one, behind who asks or nobody.  A host
of the web is not empty, and neither is one that somebody asks or that has a port. -/
def isAuthority (ofWeb : Bool) (cs : List Char) : Bool :=
  match splitPort false (cs.reverse.takeWhile (· ≠ '@')).reverse with
  | ([], none) => !ofWeb && cs.isEmpty
  | ([], some _) => false
  | (host, none) => isHost ofWeb host
  | (host, some port) => isHost ofWeb host && isPort port

end PredictionMarket.Http.Host
