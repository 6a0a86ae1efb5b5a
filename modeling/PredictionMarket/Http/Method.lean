/-!
# Methods

What a request wants to do, which its method says.  A method stands in capitals or
in small letters, and a word that mixes them is none.
-/

namespace PredictionMarket.Http

/-- The method of a request. -/
inductive Method where
  | get
  /-- Asks for the status that `get` would have. -/
  | head
  | post
  /-- Asks what other origins may do. -/
  | options
  /-- A method that no route has, by its word in capitals. -/
  | other (word : String)
deriving DecidableEq, Repr

namespace Method

/-- The word of a method. -/
def word : Method → String
  | get => "GET"
  | head => "HEAD"
  | post => "POST"
  | options => "OPTIONS"
  | other word => word

/-- The words of the methods that no route has. -/
def others : List String :=
  ["ACL", "BIND", "CHECKOUT", "CONNECT", "COPY", "DELETE", "LINK", "LOCK", "M-SEARCH", "MERGE",
    "MKACTIVITY", "MKCALENDAR", "MKCOL", "MOVE", "NOTIFY", "PATCH", "PROPFIND", "PROPPATCH",
    "PURGE", "PUT", "QUERY", "REBIND", "REPORT", "SEARCH", "SOURCE", "SUBSCRIBE", "TRACE",
    "UNBIND", "UNLINK", "UNLOCK", "UNSUBSCRIBE"]

/-- The words of those methods whose bodies are read although no route has them. -/
def readers : List String :=
  ["DELETE", "LOCK", "PATCH", "PROPFIND", "PROPPATCH", "PUT", "SEARCH", "TRACE"]

/-- The body of a request with the method is read. -/
def readsBody : Method → Bool
  | get | head | options => false
  | post => true
  | other word => word ∈ readers

/-- The method that a word names. -/
def ofWord? (s : String) : Option Method :=
  let word := s.toUpper
  if s ≠ word ∧ s ≠ word.toLower then none
  else if word = "GET" then some get
  else if word = "HEAD" then some head
  else if word = "POST" then some post
  else if word = "OPTIONS" then some options
  else if word ∈ others then some (other word)
  else none

end Method

end PredictionMarket.Http
