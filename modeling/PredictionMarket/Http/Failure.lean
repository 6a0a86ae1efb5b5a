import PredictionMarket.Http.Method
import PredictionMarket.Http.Objection

/-!
# Failures

What goes wrong with a request before a market is asked, or after it has answered.
A failure is told by its status, by the phrase of the status and by a sentence,
and some have a code besides.
-/

namespace PredictionMarket.Http

/-- What goes wrong with a request apart from markets. -/
inductive Failure where
  /-- The escapes in the path are broken. -/
  | undecodable (url : String)
  /-- No route leads there. -/
  | unrouted (method : Method) (url : String)
  /-- The body is refused unread. -/
  | unread (objection : Objection)
  /-- The origin that answers have to name is empty. -/
  | noOrigin
  /-- The origin that answers have to name must not stand in a header, so the answer
  that was due with a status cannot be sent. -/
  | unsendable (due : Nat)
deriving DecidableEq, Repr

namespace Failure

/-- The status of a failure.  An answer that cannot be sent keeps its status if
that tells of an error anyway. -/
def status : Failure → Nat
  | undecodable _ => 400
  | unrouted _ _ => 404
  | unread .tooLarge => 413
  | unread _ => 400
  | noOrigin => 500
  | unsendable due => if 400 ≤ due then due else 500

/-- The code of a failure, if it has one. -/
def code? : Failure → Option String
  | undecodable _ => some "FST_ERR_BAD_URL"
  | unread .tooLarge => some "FST_ERR_CTP_BODY_TOO_LARGE"
  | unsendable _ => some "ERR_INVALID_CHAR"
  | unrouted _ _ | unread _ | noOrigin => none

/-- The sentence that describes a failure. -/
def message : Failure → String
  | undecodable url => "'" ++ url ++ "' is not a valid url component"
  | unrouted method url => "Route " ++ method.word ++ ":" ++ url ++ " not found"
  | unread objection => objection.message
  | noOrigin => "Invalid CORS origin option"
  | unsendable _ => "Invalid character in header content [\"access-control-allow-origin\"]"

/-- The phrase of a status of an error. -/
def phrase (status : Nat) : String :=
  if status = 400 then "Bad Request"
  else if status = 404 then "Not Found"
  else if status = 409 then "Conflict"
  else if status = 413 then "Payload Too Large"
  else if status = 422 then "Unprocessable Entity"
  else "Internal Server Error"

/-- A failure as JSON. -/
def toJson (f : Failure) : Json :=
  let told : List (Text × Json) := [
    ("error", .text (phrase f.status)),
    ("message", .text f.message),
    ("statusCode", .ofInt f.status)]
  match f.code? with
  | some code => .object (("code", .text code) :: told)
  | none => .object told

end Failure

end PredictionMarket.Http
