import PredictionMarket.Http.Origin
import PredictionMarket.Http.Query
import PredictionMarket.Http.Reply
import PredictionMarket.Http.Request
import PredictionMarket.Http.Route

/-!
# The service

`handle` answers one request to a registry and `serve` a sequence of requests.
The parts of a request are read in the order path, query, body, and the first
faulty one is reported.  A request for the head of an answer gets its status only.

An origin that no answer can name spoils every answer.  An empty one does so before
anything is done, and one that must not stand in a header when the answer is sent,
after `respond` has done what was asked for.

A market is registered before its snapshot is taken, so a creation that is
refused for want of a snapshot has still registered the market.  The list leaves
out the markets that have no snapshot.
-/

namespace PredictionMarket.Http

/-- The time of a clock that shows milliseconds, in whole seconds. -/
def secondsOfClock : Number → Number
  | .finite milliseconds =>
    match Number.nearest (milliseconds / 1000) with
    | .finite seconds => .ofInt seconds.floor
    | beyond => beyond
  | milliseconds => milliseconds

/-- Creates the market that a body asks for. -/
def create (settings : Settings) (now : Number) (body : Option Json) (r : Registry) :
    Reply × Registry :=
  match CreationForm.read body with
  | .error faults => (.invalid .body faults, r)
  | .ok form =>
    let terms : Terms := {
      label := form.label
      admin := form.admin
      outcomes := Number.ofInt form.outcomes
      scale := form.scale.getD settings.defaultScale
      resolveAt := Number.ofInt form.resolveAt
    }
    match r.create (Number.ofInt settings.minDuration) terms now with
    | (.error e, r) => (.refused e, r)
    | (.ok m, r) => (Reply.ofResult .created m.snapshot, r)

/-- The snapshots of all markets that have one, in the order of creation. -/
def list (r : Registry) : Reply :=
  .listed (r.markets.filterMap fun m => m.snapshot.toOption)

/-- The value of a path that is read for its label. -/
def labelValue (label : Text) : Option Json := some (.object [("label", .text label)])

/-- The snapshot of the market with a label. -/
def snapshot (label : Text) (r : Registry) : Reply :=
  match LabelForm.read (labelValue label) with
  | .error faults => .invalid .params faults
  | .ok form => Reply.ofResult .shown (r.snapshot form.label)

/-- Previews the order that a query asks for. -/
def quote (now : Number) (label : Text) (query : Option Json) (r : Registry) : Reply :=
  match LabelForm.read (labelValue label) with
  | .error faults => .invalid .params faults
  | .ok form =>
    match OrderForm.readQuery query with
    | .error faults => .invalid .query faults
    | .ok order =>
      Reply.ofResult (.quoted form.label order)
        (r.quote form.label (Number.ofInt order.outcome) order.payment now)

/-- Executes the order that a body asks for. -/
def buy (now : Number) (label : Text) (body : Option Json) (r : Registry) : Reply × Registry :=
  match LabelForm.read (labelValue label) with
  | .error faults => (.invalid .params faults, r)
  | .ok form =>
    match OrderForm.read body with
    | .error faults => (.invalid .body faults, r)
    | .ok order =>
      let (result, r) := r.purchase form.label (Number.ofInt order.outcome) order.payment now
      (Reply.ofResult (.bought form.label order) result, r)

/-- The objection to the body of a request.  Some methods make nobody look at it. -/
def Request.objection? (request : Request) : Option Objection :=
  if request.method.readsBody then request.received.bind Objection.ofBody? else none

/-- What goes wrong with a request for want of a path that can be decoded. -/
def Request.pathFailure (request : Request) : Failure :=
  match request.method with
  | .other _ => .unrouted request.method request.target.url
  | .get | .head | .post | .options => .undecodable request.target.routedUrl

/-- Answers a request with a path at the time `now`, whatever the origins are and
however much of the answer is asked for. -/
def respond (settings : Settings) (now : Number) (request : Request) (path : List String)
    (r : Registry) : Reply × Registry :=
  match request.method, request.objection? with
  | .options, _ => (.told 400 "Invalid Preflight Request", r)
  | _, some objection => (.failed (.unread objection), r)
  | _, none =>
    match Route.find? request.method path with
    | none => (.failed (.unrouted request.method request.target.url), r)
    | some .health => (.healthy, r)
    | some .create => create settings now request.body r
    | some .list => (list r, r)
    | some (.snapshot label) => (snapshot label r, r)
    | some (.quote label) => (quote now label (some (Query.document request.target.query).value) r, r)
    | some (.buy label) => buy now label request.body r

/-- As much of a reply as a request asks for. -/
def Request.asked (request : Request) (path : List String) (reply : Reply) : Reply :=
  if request.method = .head ∧ (Route.find? request.method path).isSome then .told reply.status ""
  else reply

/-- Answers a request at the time `now`. -/
def handle (settings : Settings) (now : Number) (request : Request) (r : Registry) :
    Reply × Registry :=
  match request.target.path? with
  | none => (.failed request.pathFailure, r)
  | some path =>
    match settings.origins.fault? with
    | none =>
      let (reply, r) := respond settings now request path r
      (request.asked path reply, r)
    | some .blank => (request.asked path (.failed .noOrigin), r)
    | some .illegal =>
      let (reply, r) := respond settings now request path r
      (.failed (.unsendable reply.status), r)

/-- Answers requests in their order, each with the time of its arrival. -/
def serve (settings : Settings) (r : Registry) : List (Number × Request) → List Reply × Registry
  | [] => ([], r)
  | (now, request) :: requests =>
    let (reply, r) := handle settings now request r
    let (replies, r) := serve settings r requests
    (reply :: replies, r)

end PredictionMarket.Http
