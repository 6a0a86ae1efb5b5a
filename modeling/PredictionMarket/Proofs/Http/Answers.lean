import PredictionMarket.Proofs.Http.Effect
import PredictionMarket.Proofs.Market.Liveness
import PredictionMarket.Proofs.Registry.Purchase

/-!
# What an answer says of the registry

The status of an answer is chosen after the registry has done its work, so what it tells
is a fact about all effects.  An effect that changes the registry ends in one of three
statuses: 201 for a market that can be shown, 200 for a trade that can be reported, and 422
for what is registered but cannot be told (`status_creation` and `status_trade`).  An answer
that cannot be sent turns 200 and 201 into 500 and keeps the others.

* `Effect.eq_of_status` says that 400, 404 and 409 are harmless.
* `Effect.creation_of_status` and `Effect.trade_of_status` say what a 201 and, to a purchase,
  a 200 stand for.
* `status_unsendable` says what becomes of the status of an answer that cannot be sent.
-/

namespace PredictionMarket.Http

/-- The registries differ in one market, the one with the label, and in it shares of one
outcome have been sold for a payment. -/
def Credited (r r' : Registry) (label : Text) (outcome : Nat) (shares payment : Int) : Prop :=
  ∃ (m : Market) (j : Fin maxOutcomes) (before after : List (Text × Market)),
    outcome = j ∧ j < m.outcomes ∧ r.entries = before ++ (label, m) :: after ∧
      r'.entries = before ++ (label, m.credit j shares payment) :: after

variable {settings : Settings} {now : Number} {request : Request} {r r' : Registry} {due : Reply}

/-! ## The statuses of what changes a registry -/

/-- A market that has just been opened is shown if it has a cost. -/
theorem status_creation {m : Market} (h : m.Sound) :
    ((∃ c, m.cost = .ok c) ∧ (Reply.ofResult .created m.snapshot).status = 201) ∨
      (m.cost = .error .mathOverflow ∧ (Reply.ofResult .created m.snapshot).status = 422) := by
  rcases h.cost_ok_or_overflow with ⟨c, hc⟩ | hoverflow
  · obtain ⟨shown, hshown⟩ := h.snapshot_of_cost hc
    rw [hshown]
    exact .inl ⟨⟨c, hc⟩, rfl⟩
  · rw [Market.snapshot_of_cost_error hoverflow]
    exact .inr ⟨hoverflow, rfl⟩

/-- A trade can be reported, or has taken the market beyond the limit of the exponential. -/
theorem status_trade {m after : Market} (h : m.Reachable) {i : Number} {payment shares : Int}
    (hbuy : m.buy i payment = (.ok shares, after)) (label : Text) (order : OrderForm) :
    (∃ told, Registry.receipt after shares = .ok told ∧ told.sharesMinted = shares) ∨
      (Reply.ofResult (.bought label order) (Registry.receipt after shares)).status = 422 := by
  obtain ⟨-, -, -, hsound, hmodest⟩ := Registry.trade_facts h hbuy
  by_cases hlive : after.Live
  · obtain ⟨told, htold⟩ := Registry.receipt_of_live hsound hlive hmodest shares
    exact .inl ⟨told, htold, (Registry.receipt_eq_ok_iff.mp htold).2.2⟩
  · rw [Registry.receipt_of_not_live hsound hlive]
    exact .inr rfl

/-- The statuses of faulty requests, unknown labels and conflicts stand for no change. -/
theorem Effect.eq_of_status (h : Effect settings now request r due r') (hr : r.Regular)
    (hstatus : due.status ∈ [400, 404, 409]) : r' = r := by
  cases h with
  | nothing => rfl
  | creation hroute hbody hread hfree hopen =>
    rcases status_creation (Market.regular_of_ofTerms hopen).sound with ⟨-, h201⟩ | ⟨-, h422⟩
    · simp [h201] at hstatus
    · simp [h422] at hstatus
  | @trade label order m after shares hroute hread hopen hbuy =>
    rcases status_trade (hr.openAt hopen) hbuy label order with ⟨told, htold, -⟩ | h422
    · simp [htold, Reply.ofResult, Reply.status] at hstatus
    · simp [h422] at hstatus

/-- The status of a creation stands for a new market behind all others. -/
theorem Effect.creation_of_status (h : Effect settings now request r due r')
    (hstatus : due.status = 201) :
    ∃ form m, request.route? = some .create ∧ CreationForm.read request.body = .ok form ∧
      Market.ofTerms (form.terms settings) now (Number.ofInt settings.minDuration) = .ok m ∧
      form.label ∉ r.labels ∧ r'.entries = r.entries ++ [(form.label, m)] := by
  cases h with
  | nothing hpost hne => exact absurd hstatus hne
  | @creation form m hroute hbody hread hfree hopen =>
    exact ⟨form, m, hroute, hread, hopen, Registry.find?_eq_none_iff.mp hfree, rfl⟩
  | trade => exact absurd hstatus (status_ofResult_ne (fun _ => rfl) _)

/-- A trade on the market with a label. -/
theorem credited_of_buy {label : Text} {outcome : Nat} {payment shares : Int}
    {m after : Market} (hopen : r.openAt label now = .ok m)
    (hbuy : m.buy (Number.ofInt outcome) payment = (.ok shares, after)) :
    Credited r (r.replace label after) label outcome shares payment := by
  obtain ⟨j, hindex, -, -, -, rfl⟩ := Market.buy_eq_ok_iff.mp hbuy
  obtain ⟨hj, hlt⟩ := Market.outcome_eq_ok hindex
  have houtcome : (outcome : Int) = j := Number.ofInt_injective hj
  have hfind := (Registry.openAt_eq_ok_iff.mp hopen).1
  obtain ⟨before, others, hbefore, hafter, -⟩ :=
    Registry.entries_replace hfind (m.credit j shares payment)
  exact ⟨m, j, before, others, by exact_mod_cast houtcome, hlt, hbefore, hafter⟩

/-- The status of a result, in answer to a purchase, stands for a trade on the market with
the label. -/
theorem Effect.trade_of_status (h : Effect settings now request r due r') (hr : r.Regular)
    {label : Text} (hbuys : request.route? = some (.buy label)) (hstatus : due.status = 200) :
    ∃ order told, OrderForm.read request.body = .ok order ∧ due = .bought label order told ∧
      Credited r r' label order.outcome told.sharesMinted order.payment := by
  have hpost := Request.post_of_route? hbuys (.inr ⟨label, rfl⟩)
  cases h with
  | nothing hle => exact absurd (hle hpost) (by omega)
  | creation hroute => exact absurd (hroute.symm.trans hbuys) (by simp)
  | @trade label' order m after shares hroute hread hopen hbuy =>
    obtain rfl : label' = label := by simpa using hroute.symm.trans hbuys
    rcases status_trade (hr.openAt hopen) hbuy label' order with ⟨told, htold, rfl⟩ | h422
    · exact ⟨order, told, hread, by rw [htold]; rfl, credited_of_buy hopen hbuy⟩
    · exact absurd (h422.symm.trans hstatus) (by decide)

/-! ## The answers -/

/-- The answer in place of one that cannot be sent keeps the status of an error, and the
other ones become an error. -/
theorem status_unsendable (due : Nat) :
    ((Reply.failed (.unsendable due)).status = due ∧ 400 ≤ due) ∨
      (Reply.failed (.unsendable due)).status = 500 := by
  by_cases h : 400 ≤ due
  · exact .inl ⟨if_pos h, h⟩
  · exact .inr (if_neg h)

/-- Whatever requests came before, an answer to somebody who looks something up, and every
answer that tells of a faulty request, an unknown label or a conflict, leaves the registry as
it was.  A creation appends the market that the body asks for, and a purchase credits the
market with the label, and nothing else. -/
theorem handle_answers (env : Environment) (requests : List (Number × Request)) (now : Number)
    (request : Request) :
    let settings := Settings.ofEnvironment env
    let r := served env requests
    let answer := handle settings now request r
    (request.method = .get ∨ request.method = .head → answer.2 = r) ∧
    (answer.1.status ∈ [400, 404, 409] → answer.2 = r) ∧
    (answer.1.status = 201 →
      ∃ form m, request.route? = some .create ∧ CreationForm.read request.body = .ok form ∧
        Market.ofTerms (form.terms settings) now (Number.ofInt settings.minDuration) = .ok m ∧
        form.label ∉ r.labels ∧ answer.2.entries = r.entries ++ [(form.label, m)]) ∧
    ∀ label, request.route? = some (.buy label) → answer.1.status = 200 →
      ∃ order told, OrderForm.read request.body = .ok order ∧
        answer.1 = .bought label order told ∧
        Credited r answer.2 label order.outcome told.sharesMinted order.payment := by
  intro settings r answer
  have hr : r.Regular := served_regular env requests
  obtain ⟨due, heffect, hanswer⟩ := effect_handle settings now request r
  have hstatus : (answer.1 = due) ∨ (answer.1.status = due.status ∧ 400 ≤ due.status) ∨
      answer.1.status = 500 := by
    rcases hanswer with hdue | ⟨-, hunsendable⟩
    · exact .inl hdue
    · right
      rw [show answer.1 = _ from hunsendable]
      exact status_unsendable due.status
  have hsent : answer.1.status < 400 → answer.1 = due := by
    intro hlt
    rcases hstatus with hdue | ⟨heq, hle⟩ | h500
    · exact hdue
    · omega
    · omega
  refine ⟨?_, ?_, ?_, ?_⟩
  · rintro (hget | hhead)
    · exact (heffect.of_not_post (by simp [hget])).1
    · exact (heffect.of_not_post (by simp [hhead])).1
  · intro hmem
    rcases hstatus with hdue | ⟨heq, -⟩ | h500
    · exact heffect.eq_of_status hr (hdue ▸ hmem)
    · exact heffect.eq_of_status hr (heq ▸ hmem)
    · simp [h500] at hmem
  · intro h201
    have heq := hsent (by omega)
    exact heffect.creation_of_status (heq ▸ h201)
  · intro label hbuys h200
    have heq := hsent (by omega)
    rw [heq] at h200 ⊢
    exact heffect.trade_of_status hr hbuys h200

/-- A request that posts the text of an object. -/
def posting (path : String) (fields : List (Text × Json)) : Request where
  method := .post
  target := ⟨path.toList⟩
  received := (Body.ofText (Json.object fields).render).toOption

/-- A request for a market of three outcomes on a scale. -/
def opening (scale : String) : Request :=
  posting "/api/markets" [("label", .text "m"), ("admin", .text "a"), ("numOutcomes", .ofInt 3),
    ("scale", .text scale), ("resolveAt", .ofInt 1000)]

/-- A request to buy shares of the first outcome of that market. -/
def ordering (payment : String) : Request :=
  posting "/api/markets/m/buy" [("outcomeIndex", .ofInt 0), ("amount", .text payment)]

theorem handle_answers_ordering :
    let r := served Environment.empty [(0, opening "1000")]
    let answer := handle (Settings.ofEnvironment Environment.empty) 1 (ordering "1000") r
    answer.1.status = 200 ∧
      ∃ order told, OrderForm.read (ordering "1000").body = .ok order ∧
        answer.1 = .bought "m" order told ∧
        Credited r answer.2 "m" order.outcome told.sharesMinted order.payment := by
  have hroute : (ordering "1000").route? = some (.buy "m") := by decide +kernel
  have hstatus : (handle (Settings.ofEnvironment Environment.empty) 1 (ordering "1000")
      (served Environment.empty [(0, opening "1000")])).1.status = 200 := by decide +kernel
  obtain ⟨-, -, -, htrade⟩ :=
    handle_answers Environment.empty [(0, opening "1000")] 1 (ordering "1000")
  exact ⟨hstatus, htrade "m" hroute hstatus⟩

end PredictionMarket.Http
