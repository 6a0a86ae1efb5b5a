import PredictionMarket.Proofs.Http.Answers

/-!
# What a refused creation leaves behind

A creation registers its market before it takes the snapshot that is to be the answer.
`Registers` lists what it takes to get that far.  A creation that does has changed the
registry (`Registers.handle_eq`), and any other one has not (`registers_of_ne`).

Whether the answer tells of a creation is another question.  It does not if the cost of the
new market does not fit, as with the greatest scale that may be asked for, and it does not
if the origins spoil every answer (`Registers.status_ne_iff`).  The client is refused then,
and the label is taken all the same.
-/

namespace PredictionMarket.Http

/-- The request gets as far as registering the market `m` for its form. -/
structure Registers (settings : Settings) (now : Number) (request : Request) (r : Registry)
    (form : CreationForm) (m : Market) : Prop where
  /-- The request asks for a market. -/
  route : request.route? = some .create
  /-- The origin that answers have to name is not empty. -/
  origin : settings.origins.fault? ≠ some .blank
  /-- The body is looked at. -/
  body : request.objection? = none
  /-- The form is in the body. -/
  read : CreationForm.read request.body = .ok form
  /-- No market has the label. -/
  free : form.label ∉ r.labels
  /-- The market is opened on the terms of the form. -/
  opened : Market.ofTerms (form.terms settings) now (Number.ofInt settings.minDuration) = .ok m

variable {settings : Settings} {now : Number} {request : Request} {r : Registry}
  {form : CreationForm} {m : Market}

/-- An empty origin keeps the registry as it is. -/
theorem handle_of_blank (h : settings.origins.fault? = some .blank) :
    (handle settings now request r).2 = r := by
  unfold handle
  rw [h]
  split
  · rfl
  · rfl

/-- Only a creation that gets as far as registering changes the registry. -/
theorem registers_of_ne (hroute : request.route? = some .create)
    (hne : (handle settings now request r).2 ≠ r) :
    ∃ form m, Registers settings now request r form m := by
  have horigin : settings.origins.fault? ≠ some .blank := fun h => hne (handle_of_blank h)
  obtain ⟨due, heffect, -⟩ := effect_handle settings now request r
  revert heffect hne
  generalize (handle settings now request r).2 = r'
  intro hne heffect
  cases heffect with
  | nothing => exact absurd rfl hne
  | @creation form m _ hbody hread hfree hopen =>
    exact ⟨form, m, hroute, horigin, hbody, hread, Registry.find?_eq_none_iff.mp hfree, hopen⟩
  | trade hbuys => exact absurd (hroute.symm.trans hbuys) (by simp)

/-- A creation that gets that far is due its snapshot, and the market is registered. -/
theorem Registers.respond_eq (h : Registers settings now request r form m) {path : List String}
    (hpath : request.target.path? = some path) :
    respond settings now request path r =
      (Reply.ofResult .created m.snapshot, r.append form.label m) := by
  have hfind := (request.route?_eq hpath).symm.trans h.route
  have hmethod : request.method = .post := Request.post_of_route? h.route (.inl rfl)
  have hcreate : r.create (Number.ofInt settings.minDuration) (form.terms settings) now =
      (.ok m, r.append form.label m) := by
    unfold Registry.create
    rw [show r.find? (form.terms settings).label = none from Registry.find?_eq_none_iff.mpr h.free,
      h.opened]
    rfl
  unfold respond
  rw [hfind, h.body, hmethod]
  simp only
  rw [create_of_read h.read, hcreate]

/-- A creation that gets that far changes the registry, whatever becomes of the answer. -/
theorem Registers.handle_eq (h : Registers settings now request r form m) :
    (handle settings now request r).2 = r.append form.label m ∧
      (handle settings now request r).1 =
        if settings.origins.fault? = some .illegal then
          .failed (.unsendable (Reply.ofResult .created m.snapshot).status)
        else Reply.ofResult .created m.snapshot := by
  obtain ⟨path, hpath, -⟩ := Option.bind_eq_some_iff.mp h.route
  have hhead : request.method ≠ .head := by
    simp [Request.post_of_route? h.route (.inl rfl)]
  unfold handle
  rw [hpath]
  cases hfault : settings.origins.fault? with
  | none => simp [h.respond_eq hpath, Request.asked_of_ne_head hhead]
  | some fault =>
    cases fault with
    | blank => exact absurd hfault h.origin
    | illegal => simp [h.respond_eq hpath]

/-- A creation that gets that far is refused if the origins are illegal or the market has no
cost. -/
theorem Registers.status_ne_iff (h : Registers settings now request r form m) :
    (handle settings now request r).1.status ≠ 201 ↔
      settings.origins.fault? = some .illegal ∨ m.cost = .error .mathOverflow := by
  obtain ⟨-, hanswer⟩ := h.handle_eq
  rw [hanswer]
  by_cases hillegal : settings.origins.fault? = some .illegal
  · have hle := le_status_failed (.unsendable (Reply.ofResult .created m.snapshot).status)
    simp only [hillegal, if_pos, true_or, iff_true]
    omega
  · rw [if_neg hillegal]
    rcases status_creation (Market.regular_of_ofTerms h.opened).sound with
      ⟨⟨c, hc⟩, h201⟩ | ⟨hoverflow, h422⟩
    · simp [hillegal, h201, hc]
    · simp [hillegal, h422, hoverflow]

/-- A market under a new label is a change. -/
theorem append_ne (r : Registry) (label : Text) (m : Market) : r.append label m ≠ r := by
  intro h
  have hlen := congrArg (fun r => r.labels.length) h
  simp at hlen

/-- A refused creation changes the registry just where it gets as far as registering its
market and then either the cost of the market does not fit or the answer cannot be sent.
The market stays registered behind all others. -/
theorem creation_leaves_trace_iff (env : Environment) (requests : List (Number × Request))
    (now : Number) {request : Request} (hroute : request.route? = some .create) :
    let settings := Settings.ofEnvironment env
    let r := served env requests
    let answer := handle settings now request r
    (answer.1.status ≠ 201 ∧ answer.2 ≠ r ↔
      ∃ form m, Registers settings now request r form m ∧
        (settings.origins.fault? = some .illegal ∨
          ∃ l, FixedPoint.ln (m.outcomes * FixedPoint.one) = .ok l ∧
            Width.u64.greatest < m.scale * l / FixedPoint.one)) ∧
    ∀ form m, Registers settings now request r form m → answer.2 = r.append form.label m := by
  intro settings r answer
  constructor
  · constructor
    · rintro ⟨hstatus, hne⟩
      obtain ⟨form, m, hregisters⟩ := registers_of_ne hroute hne
      have hcause := hregisters.status_ne_iff.mp hstatus
      rw [Market.cost_overflow_iff hregisters.opened] at hcause
      exact ⟨form, m, hregisters, hcause⟩
    · rintro ⟨form, m, hregisters, hcause⟩
      rw [← Market.cost_overflow_iff hregisters.opened] at hcause
      refine ⟨hregisters.status_ne_iff.mpr hcause, ?_⟩
      show (handle settings now request r).2 ≠ r
      rw [hregisters.handle_eq.1]
      exact append_ne r form.label m
  · intro form m hregisters
    exact hregisters.handle_eq.1

/-- The request for a market of the greatest scale that fits. -/
def oversized : Request := opening "18446744073709551615"

/-- The market that it asks for. -/
def oversizedMarket : Market where
  label := "m"
  admin := "a"
  outcomes := 3
  scale := 18446744073709551615
  openedAt := 0
  resolveAt := 1000
  supplies := Vector.replicate maxOutcomes 0
  reserves := Vector.replicate maxOutcomes 0

theorem creation_leaves_trace_iff_oversized :
    let settings := Settings.ofEnvironment Environment.empty
    let r := served Environment.empty []
    oversized.route? = some .create ∧
      ∃ form m, Registers settings 0 oversized r form m ∧
        (settings.origins.fault? = some .illegal ∨
          ∃ l, FixedPoint.ln (m.outcomes * FixedPoint.one) = .ok l ∧
            Width.u64.greatest < m.scale * l / FixedPoint.one) := by
  intro settings r
  have hroute : oversized.route? = some .create := by decide +kernel
  have hrefused : (handle settings 0 oversized r).1.status ≠ 201 := by decide +kernel
  have hchanged : (handle settings 0 oversized r).2 ≠ r := by decide +kernel
  obtain ⟨htrace, -⟩ := creation_leaves_trace_iff Environment.empty [] 0 hroute
  exact ⟨hroute, htrace.mp ⟨hrefused, hchanged⟩⟩

/-- The market whose creation is refused is registered, so the label is taken when the
request is sent again. -/
theorem refused_and_registered :
    let settings := Settings.ofEnvironment Environment.empty
    let r : Registry := ⟨[("m", oversizedMarket)]⟩
    oversized.route? = some .create ∧
      handle settings 0 oversized (served Environment.empty []) = (.refused .mathOverflow, r) ∧
      (handle settings 0 oversized r).1 = .refused .marketAlreadyExists ∧
      r ≠ served Environment.empty [] := by
  decide +kernel

end PredictionMarket.Http
