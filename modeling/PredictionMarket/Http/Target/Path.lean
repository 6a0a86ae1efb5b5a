import PredictionMarket.Http.Target.Scheme

/-!
# Paths

A path is a way from the root over segments.  The segments `.` and `..`, in which an
escape may stand for a point, are resolved.  A path that ends in one of them ends in
a slash.

A plain path, in which every character stands for itself, is judged by the first of
its segments that begins with a point: where that one does not call for resolving,
the path is left as it is, whatever follows.

The first segment of the path of a file may be the letter of a drive with a colon.  A
bar may stand for the colon, and no segment `..` leads out of the drive.
-/

namespace PredictionMarket.Http.Path

/-- The character stands for itself in a path. -/
def isPathChar (c : Char) : Bool :=
  '!' ≤ c && c ≤ '~' && !(['"', '#', '<', '>', '?', '`', '\x7b', '\x7d'].contains c)

/-- The segment with its escaped points written out. -/
def plainPoints : List Char → List Char
  | '%' :: '2' :: 'e' :: cs => '.' :: plainPoints cs
  | '%' :: '2' :: 'E' :: cs => '.' :: plainPoints cs
  | c :: cs => c :: plainPoints cs
  | [] => []

/-- The segment stands for the place where it is. -/
def isHere (segment : List Char) : Bool := plainPoints segment == ['.']

/-- The segment stands for the place above. -/
def isAbove (segment : List Char) : Bool := plainPoints segment == ['.', '.']

/-- The letter of the drive that a segment names, if it names one. -/
def drive? : List Char → Option Char
  | [c, d] => if c.isAlpha ∧ (d = ':' ∨ d = '|') then some c else none
  | _ => none

/-- The way, which is in reverse, one place up. -/
def above (scheme : Scheme) : List (List Char) → List (List Char)
  | [] => []
  | [first] => if scheme = .file ∧ (drive? first).isSome then [first] else []
  | _ :: rest => rest

/-- The way, which is in reverse, with one segment more. -/
def below (scheme : Scheme) (segment : List Char) : List (List Char) → List (List Char)
  | [] =>
    match scheme, drive? segment with
    | .file, some letter => [[letter, ':']]
    | _, _ => [segment]
  | way => segment :: way

/-- Resolves the segments that stand for a place, behind the segments of `way`,
which is in reverse. -/
def resolve (scheme : Scheme) (way : List (List Char)) : List (List Char) → List (List Char)
  | [] => way.reverse
  | segment :: rest =>
    let (way, kept) :=
      if isAbove segment then (above scheme way, false)
      else if isHere segment then (way, false)
      else (below scheme segment way, true)
    if rest.isEmpty && !kept then ([] :: way).reverse else resolve scheme way rest

/-- The text behind its slash, if it begins with one. -/
def behindSlash (scheme : Scheme) : List Char → List Char
  | [] => []
  | c :: cs => if scheme.isSlash c then cs else c :: cs

/-- The segments of a text between slashes. -/
def segments (scheme : Scheme) (cs : List Char) : List (List Char) :=
  (cs.map fun c => if scheme.isSlash c then '/' else c).splitOn '/'

/-- The text has neither escapes nor backslashes, nor characters that need escapes. -/
def isPlain (cs : List Char) : Bool := cs.all fun c => isPathChar c && c ≠ '%' && c ≠ '\\'

/-- The segment begins with a point. -/
def isPointed (segment : List Char) : Bool := segment.head? == some '.'

/-- The segments of a plain path call for resolving.  The first one that begins with a
point does so if it is the first at all, if it is `.` or if it begins with `..`. -/
def callsForResolving : List (List Char) → Bool
  | [] => false
  | first :: rest =>
    isPointed first ||
      match rest.find? isPointed with
      | some segment => segment == ['.'] || segment.take 2 == ['.', '.']
      | none => false

/-- The path behind its first slash is left as it is. -/
def isLeft (scheme : Scheme) (cs : List Char) : Bool :=
  let given := segments scheme cs
  isPlain cs && !callsForResolving given && !(scheme = .file && (given.head?.bind drive?).isSome)

/-- The path that a text names, with its segments resolved. -/
def normalize (scheme : Scheme) (cs : List Char) : List Char :=
  let path := behindSlash scheme cs
  if isLeft scheme path then '/' :: path
  else '/' :: List.intercalate ['/'] (resolve scheme [] (segments scheme path))

end PredictionMarket.Http.Path
