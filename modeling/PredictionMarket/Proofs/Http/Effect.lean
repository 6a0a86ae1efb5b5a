import PredictionMarket.Http.Service
import PredictionMarket.Proofs.Registry.Change

/-!
# What a request does to the registry

On its way to an answer a request passes path, origins, body, route, form and registry.
`Effect` lists what may have become of the registry in the end.

* Nothing.  The reply then tells of no creation, and to a request that posts it tells of an
  error.
* A new market behind all others.
* A trade on the market with a label.

`effect_handle` reads this off the definitions.  The reply of an effect is the one that is
due.  It is the answer too, unless the origins have a character that must not stand in a
header.

An effect is also what some command does (`Effect.change`), so requests keep what commands
keep.  What every effect preserves holds of the registry after any sequence of requests
(`serve_induction`): its markets are reachable and its labels differ.
-/

namespace PredictionMarket

/-- The terms that a form asks for. -/
def CreationForm.terms (form : CreationForm) (settings : Settings) : Terms where
  label := form.label
  admin := form.admin
  outcomes := Number.ofInt form.outcomes
  scale := form.scale.getD settings.defaultScale
  resolveAt := Number.ofInt form.resolveAt

namespace Http

/-- Where a request leads. -/
def Request.route? (request : Request) : Option Route :=
  request.target.path?.bind (Route.find? request.method)

/-- What a request with a reply does to a registry. -/
inductive Effect (settings : Settings) (now : Number) (request : Request) (r : Registry) :
    Reply → Registry → Prop where
  /-- The registry stays. -/
  | nothing {reply : Reply} (hpost : request.method = .post → 400 ≤ reply.status)
      (hstatus : reply.status ≠ 201) : Effect settings now request r reply r
  /-- A market is opened. -/
  | creation {form : CreationForm} {m : Market} (hroute : request.route? = some .create)
      (hbody : request.objection? = none) (hread : CreationForm.read request.body = .ok form)
      (hfree : r.find? form.label = none)
      (hopen : Market.ofTerms (form.terms settings) now (Number.ofInt settings.minDuration) = .ok m) :
      Effect settings now request r (Reply.ofResult .created m.snapshot) (r.append form.label m)
  /-- Shares of an outcome are sold. -/
  | trade {label : Text} {order : OrderForm} {m after : Market} {shares : Int}
      (hroute : request.route? = some (.buy label)) (hread : OrderForm.read request.body = .ok order)
      (hopen : r.openAt label now = .ok m)
      (hbuy : m.buy (Number.ofInt order.outcome) order.payment = (.ok shares, after)) :
      Effect settings now request r
        (Reply.ofResult (.bought label order) (Registry.receipt after shares))
        (r.replace label after)

variable {settings : Settings} {now : Number} {request : Request} {r : Registry}

/-- An error changes nothing. -/
theorem Effect.of_error {reply : Reply} (h : 400 ≤ reply.status) :
    Effect settings now request r reply r :=
  .nothing (fun _ => h) (by omega)

/-- A reply to a request that does not post changes nothing. -/
theorem Effect.of_read {reply : Reply} (hmethod : request.method ≠ .post)
    (hstatus : reply.status ≠ 201) : Effect settings now request r reply r :=
  .nothing (fun hpost => absurd hpost hmethod) hstatus

theorem le_status_refused (e : MarketError) : 400 ≤ (Reply.refused e).status := by
  cases e <;> decide

theorem le_status_failed (f : Failure) : 400 ≤ (Reply.failed f).status := by
  show 400 ≤ f.status
  cases f with
  | undecodable url => exact le_rfl
  | unrouted method url => exact (by decide : 400 ≤ 404)
  | unread objection => cases objection <;> decide
  | noOrigin => decide
  | unsendable due =>
    show 400 ≤ if 400 ≤ due then due else 500
    split
    · assumption
    · decide

/-! ## Routes -/

/-- What the route asks for may change the registry. -/
def Route.Writes (route : Route) : Prop := route = .create ∨ ∃ label, route = .buy label

/-- A path to look something up is not one to change something. -/
theorem Route.not_writes_of_toRead? {path : List String} {route : Route}
    (h : toRead? path = some route) : ¬ route.Writes := by
  rintro (rfl | ⟨label, rfl⟩)
  all_goals
    unfold toRead? at h
    split at h
    all_goals simp at h

/-- A path to change something is not one to look something up. -/
theorem Route.writes_of_toWrite? {path : List String} {route : Route}
    (h : toWrite? path = some route) : route.Writes := by
  unfold toWrite? at h
  split at h
  · exact .inl (Option.some.inj h).symm
  · obtain ⟨label, -, rfl⟩ := Option.map_eq_some_iff.mp h
    exact .inr ⟨label, rfl⟩
  · exact absurd h (by simp)

/-- Those who are led to a creation or a purchase are those who post. -/
theorem Route.find?_writes_iff {method : Method} {path : List String} {route : Route}
    (h : find? method path = some route) : route.Writes ↔ method = .post := by
  cases method with
  | post => simpa using writes_of_toWrite? h
  | get | head => simpa using not_writes_of_toRead? h
  | options | other => exact absurd h (by simp [find?])

theorem Request.route?_eq {path : List String} (h : request.target.path? = some path) :
    request.route? = Route.find? request.method path := by
  rw [route?, h, Option.bind_some]

theorem Request.post_of_route? {request : Request} {route : Route}
    (h : request.route? = some route) (hwrites : route.Writes) : request.method = .post := by
  obtain ⟨path, -, hfind⟩ := Option.bind_eq_some_iff.mp h
  exact (Route.find?_writes_iff hfind).mp hwrites

/-- The label in a path is read as it stands. -/
theorem label_of_read {label : Text} {form : LabelForm}
    (h : LabelForm.read (labelValue label) = .ok form) : form.label = label := by
  have hfield : Json.field? [("label", .text label)] "label" = some (.text label) := by
    simp [Json.field?]
  unfold LabelForm.read labelValue at h
  simp only [Field.object?, ok_bind, hfield, Field.filledText, Field.text] at h
  cases hempty : label.isEmpty with
  | true => simp [hempty] at h
  | false =>
    simp only [hempty] at h
    exact congrArg LabelForm.label (Except.ok.inj h).symm

/-! ## The routes that change something -/

/-- A form that is read is handed to the registry as terms. -/
theorem create_of_read {body : Option Json} {form : CreationForm}
    (h : CreationForm.read body = .ok form) :
    create settings now body r =
      match r.create (Number.ofInt settings.minDuration) (form.terms settings) now with
      | (.error e, r) => (.refused e, r)
      | (.ok m, r) => (Reply.ofResult .created m.snapshot, r) := by
  unfold create
  rw [h]
  rfl

theorem effect_create (hroute : request.route? = some .create)
    (hbody : request.objection? = none) :
    Effect settings now request r (create settings now request.body r).1
      (create settings now request.body r).2 := by
  cases hread : CreationForm.read request.body with
  | error faults =>
    unfold create
    rw [hread]
    exact .of_error le_rfl
  | ok form =>
    rw [create_of_read hread]
    rcases r.create_cases (Number.ofInt settings.minDuration) (form.terms settings) now with
      ⟨e, hrefused⟩ | ⟨m, hfree, hopen, hdone⟩
    · rw [hrefused]
      exact .of_error (le_status_refused e)
    · rw [hdone]
      exact .creation hroute hbody hread hfree hopen

theorem effect_buy {label : Text} (hroute : request.route? = some (.buy label)) :
    Effect settings now request r (buy now label request.body r).1
      (buy now label request.body r).2 := by
  unfold buy
  cases hlabel : LabelForm.read (labelValue label) with
  | error faults => exact .of_error le_rfl
  | ok form =>
    obtain rfl := label_of_read hlabel
    cases hread : OrderForm.read request.body with
    | error faults => exact .of_error le_rfl
    | ok order =>
      rcases r.purchase_cases form.label (Number.ofInt order.outcome) order.payment now with
        ⟨e, hrefused⟩ | ⟨m, shares, after, hopen, hbuy, hdone⟩
      · simp only [hrefused]
        exact .of_error (le_status_refused e)
      · simp only [hdone]
        exact .trade hroute hread hopen hbuy

/-! ## The routes that look something up -/

/-- What is answered to a question that changes nothing tells of no creation. -/
theorem status_ofResult_ne {α : Type} {make : α → Reply} (hmake : ∀ a, (make a).status = 200)
    (result : Except MarketError α) : (Reply.ofResult make result).status ≠ 201 := by
  cases result with
  | ok a => simp [Reply.ofResult, hmake]
  | error e =>
    have hle := le_status_refused e
    simp only [Reply.ofResult]
    omega

theorem status_snapshot_ne (label : Text) (r : Registry) : (snapshot label r).status ≠ 201 := by
  unfold snapshot
  split
  · simp [Reply.status]
  · exact status_ofResult_ne (fun _ => rfl) _

theorem status_quote_ne (now : Number) (label : Text) (query : Option Json) (r : Registry) :
    (quote now label query r).status ≠ 201 := by
  unfold quote
  split
  · simp [Reply.status]
  split
  · simp [Reply.status]
  · exact status_ofResult_ne (fun _ => rfl) _

/-! ## All requests -/

theorem effect_respond {path : List String} (hpath : request.target.path? = some path) :
    Effect settings now request r (respond settings now request path r).1
      (respond settings now request path r).2 := by
  have hroute := request.route?_eq hpath
  unfold respond
  split
  · exact .of_error le_rfl
  · exact .of_error (le_status_failed _)
  rename_i hbody _
  cases hfind : Route.find? request.method path with
  | none => exact .of_error (le_status_failed _)
  | some route =>
    rw [hfind] at hroute
    have hread : ¬ route.Writes → request.method ≠ .post := mt (Route.find?_writes_iff hfind).mpr
    cases route with
    | create => exact effect_create hroute hbody
    | buy label => exact effect_buy hroute
    | health => exact .of_read (hread (by simp [Route.Writes])) (by simp [Reply.status])
    | list => exact .of_read (hread (by simp [Route.Writes])) (by simp [list, Reply.status])
    | snapshot label => exact .of_read (hread (by simp [Route.Writes])) (status_snapshot_ne label r)
    | quote label =>
      exact .of_read (hread (by simp [Route.Writes])) (status_quote_ne now label _ r)

/-- Only a request for the head of an answer gets less than the answer. -/
theorem Request.asked_of_ne_head {request : Request} (h : request.method ≠ .head)
    (path : List String) (reply : Reply) : request.asked path reply = reply :=
  if_neg fun hhead => h hhead.1

/-- The head of an answer has its status. -/
@[simp] theorem status_asked (request : Request) (path : List String) (reply : Reply) :
    (request.asked path reply).status = reply.status := by
  unfold Request.asked
  split
  · rfl
  · rfl

/-- Whoever does not post leaves the registry as it is and is told of no creation. -/
theorem Effect.of_not_post {reply : Reply} {r' : Registry}
    (h : Effect settings now request r reply r') (hmethod : request.method ≠ .post) :
    r' = r ∧ reply.status ≠ 201 := by
  cases h with
  | nothing hpost hstatus => exact ⟨rfl, hstatus⟩
  | creation hroute => exact absurd (Request.post_of_route? hroute (.inl rfl)) hmethod
  | trade hroute => exact absurd (Request.post_of_route? hroute (.inr ⟨_, rfl⟩)) hmethod

theorem Effect.asked {reply : Reply} {r' : Registry} (h : Effect settings now request r reply r')
    (path : List String) : Effect settings now request r (request.asked path reply) r' := by
  by_cases hhead : request.method = .head
  · have hmethod : request.method ≠ .post := by simp [hhead]
    obtain ⟨rfl, hstatus⟩ := h.of_not_post hmethod
    exact .of_read hmethod (by simpa using hstatus)
  · rw [Request.asked_of_ne_head hhead]
    exact h

/-- Every request has one of the effects.  The reply to it is the answer, unless the origins
make the answer one that cannot be sent. -/
theorem effect_handle (settings : Settings) (now : Number) (request : Request) (r : Registry) :
    ∃ due, Effect settings now request r due (handle settings now request r).2 ∧
      ((handle settings now request r).1 = due ∨
        (settings.origins.fault? = some .illegal ∧
          (handle settings now request r).1 = .failed (.unsendable due.status))) := by
  unfold handle
  cases hpath : request.target.path? with
  | none => exact ⟨_, .of_error (le_status_failed _), .inl rfl⟩
  | some path =>
    have heffect := @effect_respond settings now request r path hpath
    cases hfault : settings.origins.fault? with
    | none => exact ⟨_, heffect.asked path, .inl rfl⟩
    | some fault =>
      -- an empty origin is found before the request is looked at, an illegal one afterwards
      cases fault with
      | blank => exact ⟨_, (Effect.of_error (le_status_failed _)).asked path, .inl rfl⟩
      | illegal => exact ⟨_, heffect, .inr ⟨rfl, rfl⟩⟩

/-! ## Sequences of requests -/

/-- What every effect preserves holds after every sequence of requests. -/
theorem serve_induction {P : Registry → Prop}
    {requests : List (Number × Request)}
    (hstep : ∀ {now request r due r'}, (now, request) ∈ requests → P r →
      Effect settings now request r due r' → P r')
    (h : P r) : P (serve settings r requests).2 := by
  induction requests generalizing r with
  | nil => exact h
  | cons entry requests ih =>
    obtain ⟨now, request⟩ := entry
    obtain ⟨due, heffect, -⟩ := effect_handle settings now request r
    refine ih (fun hmem => hstep (List.mem_cons_of_mem _ hmem)) ?_
    exact hstep List.mem_cons_self h heffect

/-- An effect is what a command may do to the registry. -/
theorem Effect.change {due : Reply} {r' : Registry} (h : Effect settings now request r due r') :
    ∃ command answer, Change settings.minDuration r command answer r' := by
  cases h with
  | nothing => exact ⟨.list, .done, .nothing rfl (by simp)⟩
  | creation hroute hbody hread hfree hopen => exact ⟨_, _, .opening hfree hopen⟩
  | trade hroute hread hopen hbuy => exact ⟨_, _, .trade hopen hbuy⟩

theorem Effect.regular {due : Reply} {r' : Registry} (h : r.Regular)
    (heffect : Effect settings now request r due r') : r'.Regular := by
  obtain ⟨command, answer, hchange⟩ := heffect.change
  exact hchange.regular h

theorem Effect.nodup_labels {due : Reply} {r' : Registry} (h : r.labels.Nodup)
    (heffect : Effect settings now request r due r') : r'.labels.Nodup := by
  obtain ⟨command, answer, hchange⟩ := heffect.change
  exact hchange.nodup_labels h

/-- The registry after a sequence of requests to an empty one. -/
def served (env : Environment) (requests : List (Number × Request)) : Registry :=
  (serve (Settings.ofEnvironment env) Registry.empty requests).2

theorem served_regular (env : Environment) (requests : List (Number × Request)) :
    (served env requests).Regular :=
  serve_induction (fun _ => Effect.regular) Registry.regular_empty

theorem served_nodup_labels (env : Environment) (requests : List (Number × Request)) :
    (served env requests).labels.Nodup :=
  serve_induction (P := fun r => r.labels.Nodup) (fun _ => Effect.nodup_labels) List.nodup_nil

end Http

end PredictionMarket
