import PredictionMarket.Http.Host
import PredictionMarket.Http.Target.Path
import PredictionMarket.Text.Basic

/-!
# Request targets

A target is the path and the query of a request.  Controls and blanks of ASCII at
its ends do not count, nor do tabs and line ends within it.  Its fragment is
dropped, and so is a `?` with nothing behind it.  A scheme and a host may stand
before the path.  The service answers whatever they are, but a host has to be one.
What is left is written in ASCII, with escapes for the other characters.

A target whose first two characters are slashes is all path.  Two slashes that
open it in another way, by a backslash or with characters between that do not
count, begin a host.

The path that routes see ends at the first `?` or `;`, and the query is what follows.
Every segment of that path is decoded once, after it has been split.
-/

namespace PredictionMarket.Http

/-- The path and the query of a request. -/
structure Target where
  /-- The path and the query as they are written, in ASCII. -/
  written : List Char
deriving DecidableEq, Repr

/-- Why a text is no target. -/
inductive TargetFault where
  /-- There is no text. -/
  | missing
  /-- The text has a host that is none, or lacks one. -/
  | invalid
deriving DecidableEq, Repr

/-- The sentence that describes the fault. -/
def TargetFault.message : TargetFault → String
  | missing => "Cannot read properties of undefined (reading 'query')"
  | invalid => "Invalid URL"

namespace Target

/-! ## Reading -/

/-- The text, with the host of the service where its first two characters are
slashes. -/
def addressed (cs : List Char) : List Char :=
  if cs.take 2 = ['/', '/'] then "http://localhost".toList ++ cs else cs

/-- The text without the characters that do not count. -/
def significant (cs : List Char) : List Char :=
  let isOuter (c : Char) : Bool := c ≤ ' '
  let inner := ((cs.dropWhile isOuter).reverse.dropWhile isOuter).reverse
  inner.filter fun c => c ≠ '\t' ∧ c ≠ '\n' ∧ c ≠ '\r'

/-- The character stands for itself in a query. -/
def isQueryChar (scheme : Scheme) (c : Char) : Bool :=
  '!' ≤ c && c ≤ '~' && !(['"', '#', '<', '>'].contains c) && !(scheme.isOfWeb && c = '\'')

/-- The character stands for itself in a text that is no path. -/
def isPlainChar (c : Char) : Bool := ' ' ≤ c && c ≤ '~'

/-- The path that a text names, as it is written. -/
def writtenPath (scheme : Scheme) (cs : List Char) : List Char :=
  Text.percentEncode Path.isPathChar (Path.normalize scheme cs)

/-- The path behind a host, who may be asked by somebody and may have a port.  Outside
the web a host may stand alone. -/
def behindAuthority? (scheme : Scheme) (cs : List Char) : Option (List Char) :=
  let asked := cs.takeWhile (!scheme.isSlash ·)
  let rest := cs.drop asked.length
  if !Host.isAuthority scheme.isOfWeb asked then none
  else if !scheme.isOfWeb && rest.isEmpty then some []
  else some (writtenPath scheme rest)

/-- The path of a file behind its host, for which the letter of a drive does not
count. -/
def behindFileHost? (cs : List Char) : Option (List Char) :=
  let host := cs.takeWhile (!Scheme.file.isSlash ·)
  if (Path.drive? host).isSome then some (writtenPath .file cs)
  else if host.isEmpty || Host.isHost true host then
    some (writtenPath .file (cs.drop host.length))
  else none

/-- The path behind a scheme, as it is written.  A foreign scheme may stand before a
text that is no path, and nothing in it is resolved. -/
def pathBehind? (scheme : Scheme) (cs : List Char) : Option (List Char) :=
  let slashes := (cs.takeWhile scheme.isSlash).length
  match scheme with
  | .home =>
    if 2 ≤ slashes then behindAuthority? scheme (cs.drop slashes)
    else some (writtenPath scheme cs)
  | .web => behindAuthority? scheme (cs.drop slashes)
  | .file => if 2 ≤ slashes then behindFileHost? (cs.drop 2) else some (writtenPath scheme cs)
  | .foreign =>
    if 2 ≤ slashes then behindAuthority? scheme (cs.drop 2)
    else if slashes = 1 then some (writtenPath scheme cs)
    else some (Text.percentEncode isPlainChar cs)

/-- Reads a target. -/
def read (t : Text) : Except TargetFault Target :=
  if t.isEmpty then .error .missing
  else
    let text := (significant (addressed t.legible.toList)).takeWhile (· ≠ '#')
    let (scheme, cs) := Scheme.split text
    let query := (cs.dropWhile (· ≠ '?')).drop 1
    let marked :=
      if query.isEmpty then [] else '?' :: Text.percentEncode (isQueryChar scheme) query
    match pathBehind? scheme (cs.takeWhile (· ≠ '?')) with
    | some path => .ok ⟨path ++ marked⟩
    | none => .error .invalid

/-! ## What routes see -/

/-- The target as a string. -/
def url (target : Target) : String := String.ofList target.written

/-- The text behind the scheme of the service or its safe variant. -/
def behindScheme? (cs : List Char) : Option (List Char) :=
  ("http://".toList.isPrefixOf? cs).or ("https://".toList.isPrefixOf? cs)

/-- The target from its path on, where a whole address takes the place of a path. -/
def routed (target : Target) : List Char :=
  match behindScheme? target.written with
  | none => target.written
  | some cs =>
    if cs.contains '/' then cs.dropWhile (· ≠ '/') else target.written

/-- The target from its path on as a string. -/
def routedUrl (target : Target) : String := String.ofList target.routed

/-- The character ends the path. -/
def endsPath (c : Char) : Bool := c == '?' || c == ';'

/-- The segments of the path, unless an escape is broken.  The first character is
taken for the slash that opens the path. -/
def path? (target : Target) : Option (List String) :=
  (((target.routed.drop 1).takeWhile (!endsPath ·)).splitOn '/').mapM fun segment =>
    Text.percentDecode? (String.ofList segment)

/-- The query, before it is split into pairs. -/
def query (target : Target) : List Char :=
  ((target.routed.drop 1).dropWhile (!endsPath ·)).drop 1

end Target

end PredictionMarket.Http
