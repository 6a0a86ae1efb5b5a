import PredictionMarket.Http.Method
import PredictionMarket.Http.Target
import PredictionMarket.Json.Reader

/-!
# Requests

A request has a method and a target and may have a body.  A body arrives as a text,
and its value is what can be read of that text.  Of a request that is none the method
is looked at first.
-/

namespace PredictionMarket.Http

/-- A body as it arrives, with what is read of it. -/
structure Body where
  /-- The text that arrives. -/
  text : String
  /-- What is read of it. -/
  document : Json.Document
  /-- The text reads as this document. -/
  reads : Json.read text = .ok document
deriving Repr

/-- The body with a text, where the text can be read. -/
def Body.ofText (text : String) : Except Json.Malformed Body :=
  match h : Json.read text with
  | .ok document => .ok ⟨text, document, h⟩
  | .error fault => .error fault

/-- A request. -/
structure Request where
  /-- The method. -/
  method : Method
  /-- The path and the query. -/
  target : Target
  /-- What is sent along, if anything is. -/
  received : Option Body
deriving Repr

/-- The value of what is sent along. -/
def Request.body (request : Request) : Option Json :=
  request.received.map fun body => body.document.value

/-- Why there is no request. -/
inductive RequestFault where
  /-- The method is none. -/
  | method
  /-- The target is none. -/
  | target (fault : TargetFault)
deriving DecidableEq, Repr

/-- The sentence that describes the fault. -/
def RequestFault.message : RequestFault → String
  | method => "must be equal to one of the allowed values"
  | target fault => fault.message

/-- Reads a request from the word of its method, its target and its body. -/
def Request.read (word : String) (target : Text) (received : Option Body) :
    Except RequestFault Request :=
  match Method.ofWord? word, Target.read target with
  | none, _ => .error .method
  | some _, .error fault => .error (.target fault)
  | some method, .ok target => .ok ⟨method, target, received⟩

end PredictionMarket.Http
