/-!
# Schemes

A target may begin with a scheme and a colon.  The scheme decides which characters
count as slashes and whether a host has to follow.  A target without a scheme has
the one of the service.
-/

namespace PredictionMarket.Http

/-- What kind of scheme a target has. -/
inductive Scheme where
  /-- The scheme of the service. -/
  | home
  /-- Another scheme of the web, behind which a host has to follow. -/
  | web
  /-- The scheme of files. -/
  | file
  /-- Any other scheme. -/
  | foreign
deriving DecidableEq, Repr

namespace Scheme

/-- The kind of a scheme, by its word in small letters. -/
def ofWord (word : String) : Scheme :=
  if word = "http" then home
  else if word ∈ ["https", "ws", "wss", "ftp"] then web
  else if word = "file" then file
  else foreign

/-- The scheme is one of those that browsers know. -/
def isOfWeb (scheme : Scheme) : Bool := scheme ≠ foreign

/-- The character counts as a slash.  On the web a backslash does so too. -/
def isSlash (scheme : Scheme) (c : Char) : Bool := c = '/' || (scheme.isOfWeb && c = '\\')

/-- The character may stand in a scheme. -/
def isSchemeChar (c : Char) : Bool := c.isAlphanum || c = '+' || c = '-' || c = '.'

/-- Takes the scheme off a text.  A scheme begins with a letter. -/
def split (cs : List Char) : Scheme × List Char :=
  let word := cs.takeWhile isSchemeChar
  match word.head?.any Char.isAlpha, cs.drop word.length with
  | true, ':' :: rest => (ofWord (String.ofList (word.map Char.toLower)), rest)
  | _, _ => (home, cs)

end Scheme

end PredictionMarket.Http
