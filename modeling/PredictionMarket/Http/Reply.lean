import PredictionMarket.Http.Failure
import PredictionMarket.Http.Results
import PredictionMarket.Request.Forms

/-!
# Replies

A `Reply` says what became of a request, and its status and content say the same to
the client.  Most content is JSON.
-/

namespace PredictionMarket.Http

/-- The part of a request that a form is read from. -/
inductive Part where
  | body
  | params
  | query
deriving DecidableEq, Repr

/-- The sentence that tells that a part is faulty. -/
def Part.message : Part → String
  | body => "Invalid body"
  | params => "Invalid params"
  | query => "Invalid query"

/-- What a reply carries. -/
inductive Content where
  /-- A value. -/
  | json (value : Json)
  /-- A text that stands for itself. -/
  | plain (text : String)
deriving Repr

/-- What became of a request. -/
inductive Reply where
  /-- The service is alive. -/
  | healthy
  /-- A market has been created. -/
  | created (s : Market.Snapshot)
  /-- The markets that have a snapshot. -/
  | listed (ss : List Market.Snapshot)
  /-- A market. -/
  | shown (s : Market.Snapshot)
  /-- The preview of an order for the market with a label. -/
  | quoted (label : Text) (order : OrderForm) (q : Market.Quote)
  /-- An order for the market with a label has been executed. -/
  | bought (label : Text) (order : OrderForm) (r : Receipt)
  /-- A part of the request is faulty. -/
  | invalid (part : Part) (faults : Faults)
  /-- The request is refused. -/
  | refused (e : MarketError)
  /-- Something else goes wrong. -/
  | failed (f : Failure)
  /-- There is a status to tell and not more than a text besides. -/
  | told (status : Nat) (text : String)
deriving DecidableEq, Repr

/-- The status of a refusal. -/
def refusalStatus : MarketError → Nat
  | .marketNotFound => 404
  | .marketAlreadyExists => 409
  | .marketExpired => 409
  | _ => 422

namespace Reply

/-- The reply that a result makes. -/
def ofResult {α : Type} (make : α → Reply) : Except MarketError α → Reply
  | .ok a => make a
  | .error e => refused e

/-- The status of a reply. -/
def status : Reply → Nat
  | created _ => 201
  | invalid _ _ => 400
  | refused e => refusalStatus e
  | failed f => f.status
  | told status _ => status
  | healthy | listed _ | shown _ | quoted _ _ _ | bought _ _ _ => 200

/-- The content of a reply. -/
def content : Reply → Content
  | healthy => .json (.object [("status", .text "ok")])
  | created s => .json s.toJson
  | listed ss =>
    .json (.object
      [("data", .array (ss.map Market.Snapshot.toJson)), ("total", .ofInt ss.length)])
  | shown s => .json s.toJson
  | quoted label order q => .json (q.toJson label (Number.ofInt order.outcome) order.payment)
  | bought label order r => .json (r.toJson label (Number.ofInt order.outcome) order.payment)
  | invalid part faults =>
    .json (.object [("details", faults.toJson), ("error", .text part.message)])
  | refused e => .json e.toJson
  | failed f => .json f.toJson
  | told _ text => .plain text

end Reply

end PredictionMarket.Http
