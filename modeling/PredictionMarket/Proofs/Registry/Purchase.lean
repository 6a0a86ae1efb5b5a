import Mathlib
import PredictionMarket.Proofs.Registry.Change

/-!
# What a purchase leaves behind

A purchase books its trade and then reports cost and prices.  For the markets of a
reachable registry the report fails in one case alone, that of a mint which takes its
outcome beyond the limit of the exponential (`receipt_of_live` and
`receipt_of_not_live`).  The purchase is then answered with an overflow while its
trade stays booked, so a refused purchase leaves the registry as it was in all cases
but this one.

A preview runs the same computations, and some more on the market before the trade.
On a reachable market these never fail once the mint succeeds, so a purchase is
previewed just where it is accepted (`quote_accepted_iff`), and as it then happens
(`quote_tells_receipt`).
-/

namespace PredictionMarket.Registry

open Session (reached reached_regular)

/-! ## The report of a purchase -/

theorem receipt_eq_ok_iff {m : Market} {shares : Int} {told : Receipt} :
    receipt m shares = .ok told ↔
      m.cost = .ok told.cost ∧ m.prices = .ok told.prices ∧ told.sharesMinted = shares := by
  rw [receipt]
  constructor
  · intro h
    obtain ⟨c, hc, h⟩ := bind_eq_ok_iff.mp h
    obtain ⟨ps, hps, h⟩ := bind_eq_ok_iff.mp h
    obtain rfl := Except.ok.inj h
    exact ⟨hc, hps, rfl⟩
  · rintro ⟨hc, hps, rfl⟩
    rw [hc, ok_bind, hps, ok_bind]
    rfl

/-- A live market of modest scale can be reported. -/
theorem receipt_of_live {m : Market} (h : m.Sound) (hlive : m.Live) (hmodest : m.Modest)
    (shares : Int) : ∃ told, receipt m shares = .ok told := by
  obtain ⟨c, hc⟩ := h.cost_ok hlive hmodest
  obtain ⟨ps, hps, -⟩ := h.prices_ok hlive
  exact ⟨⟨shares, ps, c⟩, receipt_eq_ok_iff.mpr ⟨hc, hps, rfl⟩⟩

theorem receipt_of_not_live {m : Market} (h : m.Sound) (hlive : ¬ m.Live) (shares : Int) :
    receipt m shares = .error .mathOverflow := by
  rw [receipt, h.cost_of_not_live hlive, error_bind]

/-- What is known of the markets on both sides of a trade. -/
theorem trade_facts {m after : Market} (h : m.Reachable) {i : Number} {payment shares : Int}
    (hbuy : m.buy i payment = (.ok shares, after)) :
    m.Sound ∧ m.Live ∧ m.Modest ∧ after.Sound ∧ after.Modest := by
  have hsound := h.regular.sound
  obtain ⟨j, l, -, hj, hm, -, -, -, -, rfl⟩ := hsound.trade hbuy
  have hmodest := hm.modest hsound hj
  exact ⟨hsound, hm.live, hmodest, (h.traded hbuy).regular.sound, hmodest⟩

/-! ## Refused purchases -/

/-- A trade changes the market. -/
theorem ne_of_buy {m after : Market} (h : m.Sound) {i : Number} {payment shares : Int}
    (hbuy : m.buy i payment = (.ok shares, after)) : after ≠ m := by
  obtain ⟨j, l, -, -, hm, -, -, -, rfl, rfl⟩ := h.trade hbuy
  intro heq
  have hsupply : (m.credit j (m.scale * l) payment).supplies.get j = m.supplies.get j := by rw [heq]
  rw [Market.supply_credit] at hsupply
  have hpos := hm.shares_pos
  omega

/-- A trade that is booked changes the registry. -/
theorem replace_ne_of_buy {r : Registry} {label : Text} {now : Number} {m after : Market}
    (h : m.Sound) (hopen : r.openAt label now = .ok m) {i : Number} {payment shares : Int}
    (hbuy : m.buy i payment = (.ok shares, after)) : r.replace label after ≠ r := by
  intro heq
  have hfind := (openAt_eq_ok_iff.mp hopen).1
  have hafter := find?_replace_self hfind after
  rw [heq, hfind] at hafter
  exact ne_of_buy h hbuy (Option.some.inj hafter).symm

/-- A refused purchase changes the registry just where its order is carried out and
takes the market beyond the limit of the exponential.  The answer is an overflow then,
the market after the trade is registered, and every other label keeps its market. -/
theorem purchase_leaves_trace_iff (env : Environment) (commands : List Command) (label : Text)
    (i : Number) (payment : Int) (now : Number) :
    let r := reached env commands
    let result := r.purchase label i payment now
    ((∃ e, result.1 = .error e ∧ result.2 ≠ r) ↔
      ∃ m shares after, r.openAt label now = .ok m ∧ m.buy i payment = (.ok shares, after) ∧
        ¬ after.Live) ∧
    ∀ m shares after, r.openAt label now = .ok m → m.buy i payment = (.ok shares, after) →
      ¬ after.Live → result = (.error .mathOverflow, r.replace label after) ∧
        ∀ other ≠ label, result.2.find? other = r.find? other := by
  intro r result
  have hr : r.Regular := reached_regular env commands
  constructor
  · constructor
    · rintro ⟨e, herror, hchanged⟩
      rcases r.purchase_cases label i payment now with
        ⟨e', hrefused⟩ | ⟨m, shares, after, hopen, hbuy, hdone⟩
      · exact absurd (congrArg Prod.snd hrefused) hchanged
      · refine ⟨m, shares, after, hopen, hbuy, ?_⟩
        intro hlive
        obtain ⟨-, -, -, hsound, hmodest⟩ := trade_facts (hr.openAt hopen) hbuy
        obtain ⟨told, htold⟩ := receipt_of_live hsound hlive hmodest shares
        have hresult : result.1 = .ok told := (congrArg Prod.fst hdone).trans htold
        rw [hresult] at herror
        exact absurd herror (by simp)
    · rintro ⟨m, shares, after, hopen, hbuy, hlive⟩
      obtain ⟨hm, -, -, hsound, -⟩ := trade_facts (hr.openAt hopen) hbuy
      have hresult : result = (receipt after shares, r.replace label after) :=
        purchase_of_buy hopen hbuy
      rw [hresult, receipt_of_not_live hsound hlive]
      exact ⟨.mathOverflow, rfl, replace_ne_of_buy hm hopen hbuy⟩
  · intro m shares after hopen hbuy hlive
    obtain ⟨-, -, -, hsound, -⟩ := trade_facts (hr.openAt hopen) hbuy
    have hresult : result = (.error .mathOverflow, r.replace label after) := by
      rw [← receipt_of_not_live hsound hlive shares]
      exact purchase_of_buy hopen hbuy
    rw [hresult]
    exact ⟨rfl, fun other hother => find?_replace_of_ne r hother after⟩

/-- The terms of a market of two outcomes with the least scale. -/
def leastScale : Terms where
  label := Text.ofString "least"
  admin := Text.ofString "admin"
  outcomes := 2
  scale := 1
  resolveAt := 1000

/-- The market on these terms, before its first trade. -/
def leastMarket : Market where
  label := Text.ofString "least"
  admin := Text.ofString "admin"
  outcomes := 2
  scale := 1
  openedAt := 0
  resolveAt := 1000
  supplies := Vector.replicate maxOutcomes 0
  reserves := Vector.replicate maxOutcomes 0

theorem reached_leastMarket :
    reached Environment.empty [.create leastScale 0] = ⟨[(leastScale.label, leastMarket)]⟩ := by
  decide +kernel

/-- A payment of twenty scales is answered with an overflow, and its shares are
registered all the same. -/
theorem overflow_keeping_the_mint :
    let r := reached Environment.empty [.create leastScale 0]
    let after := leastMarket.credit 0 20693147179 20
    r.purchase leastScale.label 0 20 1 =
        (.error .mathOverflow, ⟨[(leastScale.label, after)]⟩) ∧
      r = ⟨[(leastScale.label, leastMarket)]⟩ ∧ after ≠ leastMarket := by
  rw [reached_leastMarket]
  refine ⟨?_, rfl, ?_⟩
  · cbv
  · decide +kernel

/-! ## Previews -/

/-- A trade that leaves its market live can be previewed. -/
theorem exists_quote {m after : Market} (h : m.Reachable) {i : Number} {payment shares : Int}
    (hbuy : m.buy i payment = (.ok shares, after)) (hlive : after.Live) :
    ∃ q, m.quote i payment = .ok q := by
  obtain ⟨hm, hmlive, hmodest, hafter, hmodest'⟩ := trade_facts h hbuy
  obtain ⟨j, hindex, hindex'⟩ := Market.outcome_of_buy hbuy
  obtain ⟨psBefore, hpsBefore, -⟩ := hm.prices_ok hmlive
  obtain ⟨psAfter, hpsAfter, -⟩ := hafter.prices_ok hlive
  obtain ⟨costBefore, hcostBefore⟩ := hm.cost_ok hmlive hmodest
  obtain ⟨costAfter, hcostAfter⟩ := hafter.cost_ok hlive hmodest'
  have hpriceBefore : m.price i = .ok (psBefore.getD j 0) :=
    Market.price_eq_ok_iff.mpr ⟨j, psBefore, hindex, hpsBefore, rfl⟩
  have hpriceAfter : after.price i = .ok (psAfter.getD j 0) :=
    Market.price_eq_ok_iff.mpr ⟨j, psAfter, hindex', hpsAfter, rfl⟩
  refine ⟨⟨shares, psBefore.getD j 0, psAfter.getD j 0, costBefore, costAfter⟩, ?_⟩
  exact Market.quote_eq_ok_iff.mpr
    ⟨after, hpriceBefore, hcostBefore, hbuy, hpriceAfter, hcostAfter⟩

/-- A preview and a purchase are accepted together. -/
theorem quote_accepted_iff {r : Registry} (hr : r.Regular) (label : Text) (i : Number)
    (payment : Int) (now : Number) :
    (∃ q, r.quote label i payment now = .ok q) ↔
      ∃ told r', r.purchase label i payment now = (.ok told, r') := by
  constructor
  · rintro ⟨q, hq⟩
    obtain ⟨m, hopen, hquote⟩ := quote_eq_ok_iff.mp hq
    obtain ⟨after, -, -, hbuy, hpriceAfter, hcostAfter⟩ := Market.quote_eq_ok_iff.mp hquote
    obtain ⟨-, ps, -, hps, -⟩ := Market.price_eq_ok_iff.mp hpriceAfter
    exact ⟨⟨q.sharesOut, ps, q.costAfter⟩, r.replace label after, purchase_eq_ok_iff.mpr
      ⟨m, _, after, hopen, hbuy, receipt_eq_ok_iff.mpr ⟨hcostAfter, hps, rfl⟩, rfl⟩⟩
  · rintro ⟨told, r', hpurchase⟩
    obtain ⟨m, shares, after, hopen, hbuy, hreceipt, -⟩ := purchase_eq_ok_iff.mp hpurchase
    obtain ⟨-, -, -, hafter, -⟩ := trade_facts (hr.openAt hopen) hbuy
    obtain ⟨hcost, -⟩ := receipt_eq_ok_iff.mp hreceipt
    obtain ⟨hlive, -⟩ := hafter.cost_eq_ok hcost
    obtain ⟨q, hq⟩ := exists_quote (hr.openAt hopen) hbuy hlive
    exact ⟨q, quote_eq_ok_iff.mpr ⟨m, hopen, hq⟩⟩

/-- The snapshot of a label is that of its market. -/
theorem snapshot_of_find? {r : Registry} {label : Text} {m : Market}
    (h : r.find? label = some m) : r.snapshot label = m.snapshot := by
  unfold snapshot get
  rw [h]
  rfl

/-- What a preview tells of a trade agrees with its receipt and with the snapshots on
both sides of it. -/
theorem quote_tells_receipt {m after : Market} (h : m.Reachable) {i : Number}
    {payment shares : Int} {q : Market.Quote} {told : Receipt}
    (hbuy : m.buy i payment = (.ok shares, after)) (hquote : m.quote i payment = .ok q)
    (hreceipt : receipt after shares = .ok told) :
    ∃ (j : Nat) (before shown : Market.Snapshot), i = Number.ofInt j ∧
      m.snapshot = .ok before ∧ after.snapshot = .ok shown ∧
      q.sharesOut = told.sharesMinted ∧ q.costAfter = told.cost ∧
      told.prices[j]? = some q.priceAfter ∧
      q.costBefore = before.cost ∧ before.prices[j]? = some q.priceBefore ∧
      shown.cost = told.cost ∧ shown.prices = told.prices := by
  obtain ⟨after', hpriceBefore, hcostBefore, hbuy', hpriceAfter, hcostAfter⟩ :=
    Market.quote_eq_ok_iff.mp hquote
  obtain ⟨rfl, rfl⟩ : shares = q.sharesOut ∧ after = after' := by
    rw [hbuy] at hbuy'
    obtain ⟨hshares, hafter⟩ := Prod.mk.inj hbuy'
    exact ⟨Except.ok.inj hshares, hafter⟩
  obtain ⟨hcost, hprices, hshares⟩ := receipt_eq_ok_iff.mp hreceipt
  obtain ⟨hm, hmlive, hmodest, hafter, hmodest'⟩ := trade_facts h hbuy
  obtain ⟨hlive, -⟩ := hafter.cost_eq_ok hcost
  obtain ⟨j, hindex, hindex'⟩ := Market.outcome_of_buy hbuy
  obtain ⟨before, hbefore, hbeforeCost, hbeforePrices⟩ := hm.snapshot_ok hmlive hmodest
  obtain ⟨shown, hshown, hshownCost, hshownPrices⟩ := hafter.snapshot_ok hlive hmodest'
  refine ⟨j, before, shown, (Market.outcome_eq_ok hindex).1, hbefore, hshown, hshares.symm,
    ?_, ?_, ?_, ?_, ?_, ?_⟩
  · exact Except.ok.inj (hcostAfter.symm.trans hcost)
  · exact hafter.getElem?_prices hindex' hprices hpriceAfter
  · exact Except.ok.inj (hcostBefore.symm.trans hbeforeCost)
  · exact hm.getElem?_prices hindex hbeforePrices hpriceBefore
  · exact Except.ok.inj (hshownCost.symm.trans hcost)
  · exact Except.ok.inj (hshownPrices.symm.trans hprices)

/-- A purchase is previewed just where it is accepted.  The preview then tells the
shares, the cost and the price of the receipt, and the cost and the price of the snapshot
before, and the snapshot afterwards shows cost and prices of the receipt. -/
theorem quote_agrees_with_purchase (env : Environment) (commands : List Command) (label : Text)
    (i : Number) (payment : Int) (now : Number) :
    let r := reached env commands
    ((∃ q, r.quote label i payment now = .ok q) ↔
      ∃ told r', r.purchase label i payment now = (.ok told, r')) ∧
    ∀ q told r', r.quote label i payment now = .ok q →
      r.purchase label i payment now = (.ok told, r') →
      ∃ (j : Nat) (before after : Market.Snapshot), i = Number.ofInt j ∧
        r.snapshot label = .ok before ∧ r'.snapshot label = .ok after ∧
        q.sharesOut = told.sharesMinted ∧ q.costAfter = told.cost ∧
        told.prices[j]? = some q.priceAfter ∧
        q.costBefore = before.cost ∧ before.prices[j]? = some q.priceBefore ∧
        after.cost = told.cost ∧ after.prices = told.prices := by
  intro r
  have hr : r.Regular := reached_regular env commands
  constructor
  · exact quote_accepted_iff hr label i payment now
  · intro q told r' hquote hpurchase
    obtain ⟨m, hopen, hquote⟩ := quote_eq_ok_iff.mp hquote
    obtain ⟨m', shares, after, hopen', hbuy, hreceipt, rfl⟩ := purchase_eq_ok_iff.mp hpurchase
    obtain rfl : m = m' := by
      rw [hopen] at hopen'
      exact Except.ok.inj hopen'
    have hfind := (openAt_eq_ok_iff.mp hopen).1
    rw [snapshot_of_find? hfind, snapshot_of_find? (find?_replace_self hfind after)]
    exact quote_tells_receipt (hr.openAt hopen) hbuy hquote hreceipt

/-- A payment of one scale, which both accept. -/
theorem quote_agrees_with_purchase_least :
    let r := reached Environment.empty [.create leastScale 0]
    ∃ q told r', r.quote leastScale.label 0 1 1 = .ok q ∧
      r.purchase leastScale.label 0 1 1 = (.ok told, r') ∧
      ∃ (j : Nat) (before after : Market.Snapshot), (0 : Number) = Number.ofInt j ∧
        r.snapshot leastScale.label = .ok before ∧ r'.snapshot leastScale.label = .ok after ∧
        q.sharesOut = told.sharesMinted ∧ q.costAfter = told.cost ∧
        told.prices[j]? = some q.priceAfter ∧
        q.costBefore = before.cost ∧ before.prices[j]? = some q.priceBefore ∧
        after.cost = told.cost ∧ after.prices = told.prices := by
  intro r
  obtain ⟨haccepted, hagree⟩ :=
    quote_agrees_with_purchase Environment.empty [.create leastScale 0] leastScale.label 0 1 1
  have hquote : ∃ q, r.quote leastScale.label 0 1 1 = .ok q := by
    show ∃ q, (reached Environment.empty [.create leastScale 0]).quote _ _ _ _ = .ok q
    rw [reached_leastMarket]
    exact ⟨⟨1489880125, 500000000, 816060279, 0, 1⟩, by cbv⟩
  obtain ⟨q, hq⟩ := hquote
  obtain ⟨told, r', htold⟩ := haccepted.mp ⟨q, hq⟩
  exact ⟨q, told, r', hq, htold, hagree q told r' hq htold⟩

end PredictionMarket.Registry
