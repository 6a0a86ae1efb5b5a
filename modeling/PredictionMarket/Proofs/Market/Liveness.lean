import Mathlib
import PredictionMarket.Proofs.Market.Refusals
import PredictionMarket.Proofs.Market.Run

/-!
# Live markets and dead ones

A reachable market is live or dead, and this module says what that means for its
operations.

* Live.  There are prices.  The cost is the scaled logarithm of the pool where that
  fits (`Sound.cost_eq_confine`).  It can only fail to fit before the first trade, as a
  market that ever traded has a scale of modest size.  With the cost there is a snapshot
  (`Sound.snapshot_of_cost`).
* Dead.  `Dead` lists the operations that are refused with an overflow.  As trades are
  among them, no run brings a dead market back (`Sound.executeAll_of_not_live`).

`InDomain` is the statement that an operation does not ask for a logarithm outside its
domain, which is not one of the ordinary causes (`Ordinary.inDomain`).
-/

namespace PredictionMarket.Market

open FixedPoint

/-! ## Operations within the domain of the logarithm -/

/-- The operation is not refused for an argument outside the domain. -/
def InDomain {α : Type} (x : Except MarketError α) : Prop := x ≠ .error .mathDomain

theorem Ordinary.inDomain {α : Type} {x : Except MarketError α} (h : Ordinary x) :
    InDomain x := by
  intro herror
  exact absurd (h _ herror) (by decide)

/-- No operation of the market is refused for an argument outside the domain. -/
structure WithinDomain (m : Market) : Prop where
  /-- The cost is not. -/
  cost : InDomain m.cost
  /-- The prices are not. -/
  prices : InDomain m.prices
  /-- No single price is. -/
  price : ∀ i, InDomain (m.price i)
  /-- No computation of shares is. -/
  sharesOut : ∀ i payment, InDomain (m.sharesOut i payment)
  /-- No trade is. -/
  buy : ∀ i payment, InDomain (m.buy i payment).1
  /-- No preview is. -/
  quote : ∀ i payment, InDomain (m.quote i payment)
  /-- The snapshot is not. -/
  snapshot : InDomain m.snapshot
  /-- The greatest loss is not. -/
  worstCaseLoss : InDomain (worstCaseLoss m.scale (Number.ofInt m.outcomes))

theorem Sound.withinDomain {m : Market} (h : m.Sound) : m.WithinDomain where
  cost := h.ordinary_cost.inDomain
  prices := h.ordinary_prices.inDomain
  price i := (h.ordinary_price i).inDomain
  sharesOut i payment := (ordinary_sharesOut m i payment).inDomain
  buy i payment := (ordinary_buy m i payment).inDomain
  quote i payment := (h.ordinary_quote i payment).inDomain
  snapshot := h.ordinary_snapshot.inDomain
  worstCaseLoss := h.ordinary_worstCaseLoss.inDomain

/-! ## Dead markets -/

/-- Every operation on the market is refused with an overflow, and no run of orders
changes the market. -/
structure Dead (m : Market) : Prop where
  /-- There is no cost. -/
  cost : m.cost = .error .mathOverflow
  /-- There are no prices. -/
  prices : m.prices = .error .mathOverflow
  /-- No outcome has a price. -/
  price : ∀ j : Fin maxOutcomes, j < m.outcomes → m.price (Number.ofInt j) = .error .mathOverflow
  /-- No trade can be previewed. -/
  quote : ∀ j : Fin maxOutcomes, j < m.outcomes →
    ∀ payment, m.quote (Number.ofInt j) payment = .error .mathOverflow
  /-- No outcome is sold. -/
  buy : ∀ j : Fin maxOutcomes, j < m.outcomes →
    ∀ payment, 0 < payment → m.buy (Number.ofInt j) payment = (.error .mathOverflow, m)
  /-- No run of orders changes the market. -/
  executeAll : ∀ orders, m.executeAll orders = m

/-- Of a market that is not live nothing is sold, whatever the index and the
payment. -/
theorem Sound.buy_of_not_live {m : Market} (h : m.Sound) (hlive : ¬ m.Live) (i : Number)
    (payment : Int) : ∃ e, m.buy i payment = (.error e, m) := by
  rcases m.buy_refused_or_done i payment with hrefused | ⟨shares, after, hbuy⟩
  · exact hrefused
  · obtain ⟨j, l, -, -, hm, -⟩ := h.trade hbuy
    exact absurd hm.live hlive

theorem Sound.executeAll_of_not_live {m : Market} (h : m.Sound) (hlive : ¬ m.Live)
    (orders : List Order) : m.executeAll orders = m := by
  induction orders with
  | nil => rfl
  | cons o orders ih =>
    obtain ⟨e, hbuy⟩ := h.buy_of_not_live hlive o.outcome o.payment
    rw [executeAll_cons, execute_of_error hbuy, ih]

theorem Sound.dead_of_not_live {m : Market} (h : m.Sound) (hlive : ¬ m.Live) : m.Dead := by
  have hprices := h.prices_of_not_live hlive
  have hprice : ∀ j : Fin maxOutcomes, j < m.outcomes →
      m.price (Number.ofInt j) = .error .mathOverflow := by
    intro j hj
    rw [price, outcome_ofInt h.outcomes_le hj, ok_bind, hprices, error_bind]
  refine ⟨h.cost_of_not_live hlive, hprices, hprice, ?_, ?_, h.executeAll_of_not_live hlive⟩
  · intro j hj payment
    rw [quote, hprice j hj, error_bind]
  · intro j hj payment hpayment
    rw [Market.buy]
    simp only [outcome_ofInt h.outcomes_le hj, h.mint_of_not_live hlive j hpayment]

/-! ## Live markets -/

/-- The cost of a live market is the scaled logarithm of the pool, where that fits. -/
theorem Sound.cost_eq_confine {m : Market} (h : m.Sound) (hlive : m.Live) :
    ∃ l, ln m.poolValue = .ok l ∧ 0 ≤ l ∧ m.cost = Width.u64.confine (m.scale * l / one) := by
  obtain ⟨l, hl, hlow, -⟩ := h.ln_poolValue hlive
  have hprod : 0 ≤ m.scale * l := mul_nonneg h.scale_pos.le (by omega)
  refine ⟨l, hl, by omega, ?_⟩
  rw [cost_eq h.outcomes_le h.scale_pos, h.pool_of_live hlive, ok_bind, hl, ok_bind, ← Int.tdiv_eq_ediv_of_nonneg hprod]
  by_cases hfits : Width.i128.Fits (m.scale * l)
  · rw [Width.mul_eq_ok_iff.mpr ⟨hfits, rfl⟩, ok_bind]
  · -- a product beyond the widest integers leaves an amount that does not fit either
    have hbig : Width.i128.greatest < m.scale * l := by
      by_contra hle
      exact hfits ⟨le_trans (by decide) hprod, not_lt.mp hle⟩
    have hquot : Width.u64.greatest < (m.scale * l).tdiv one := by
      rw [Int.tdiv_eq_ediv_of_nonneg hprod]
      simp only [Width.greatest, one] at hbig ⊢
      omega
    rw [Width.mul, Width.confine_of_not_fits hfits, error_bind,
      Width.confine_of_not_fits fun hfits => absurd hfits.2 (not_le.mpr hquot)]

/-- The cost of a sound market is refused for an overflow or not at all. -/
theorem Sound.cost_ok_or_overflow {m : Market} (h : m.Sound) :
    (∃ c, m.cost = .ok c) ∨ m.cost = .error .mathOverflow := by
  by_cases hlive : m.Live
  · obtain ⟨l, -, -, hcost⟩ := h.cost_eq_confine hlive
    rw [hcost]
    by_cases hfits : Width.u64.Fits (m.scale * l / one)
    · exact .inl ⟨_, Width.confine_of_fits hfits⟩
    · exact .inr (Width.confine_of_not_fits hfits)
  · exact .inr (h.cost_of_not_live hlive)

/-- A market that has a cost has a greatest loss, made of the logarithm of the number of
outcomes. -/
theorem Sound.worstCaseLoss_of_cost {m : Market} (h : m.Sound) {c : Int} (hc : m.cost = .ok c) :
    ∃ l, ln (m.outcomes * one) = .ok l ∧
      worstCaseLoss m.scale (Number.ofInt m.outcomes) = .ok (m.scale * l / one) := by
  -- a scale whose cost fits has at most twenty digits
  have hscale : m.scale ≤ 30000000000000000000 := by
    obtain ⟨hlive, k, hk, hklow, -⟩ := h.cost_eq_ok hc
    obtain ⟨k', hk', -, hconfine⟩ := h.cost_eq_confine hlive
    obtain rfl := Except.ok.inj (hk.symm.trans hk')
    obtain ⟨hfits, -⟩ := Width.confine_eq_ok_iff.mp (hconfine.symm.trans hc)
    have hmul := Int.mul_le_mul_of_nonneg_left hklow h.scale_pos.le
    have hmax := hfits.2
    simp only [Width.greatest, one] at hmax
    omega
  obtain ⟨l, hl, hl0, hloss⟩ := h.worstCaseLoss_of_scale_le hscale
  rw [Int.tdiv_eq_ediv_of_nonneg (mul_nonneg h.scale_pos.le hl0)] at hloss
  exact ⟨l, hl, hloss⟩

/-- A sound market that has a cost can be shown. -/
theorem Sound.snapshot_of_cost {m : Market} (h : m.Sound) {c : Int} (hc : m.cost = .ok c) :
    ∃ shown, m.snapshot = .ok shown := by
  obtain ⟨hlive, -⟩ := h.cost_eq_ok hc
  obtain ⟨ps, hps, -⟩ := h.prices_ok hlive
  obtain ⟨l, -, hloss⟩ := h.worstCaseLoss_of_cost hc
  refine ⟨⟨m, c, ps, m.scale * l / one⟩, ?_⟩
  rw [snapshot, hc, ok_bind, hps, ok_bind, hloss, ok_bind]
  rfl

/-- A market without a cost cannot be shown, for the same cause. -/
theorem snapshot_of_cost_error {m : Market} {e : MarketError} (hc : m.cost = .error e) :
    m.snapshot = .error e := by
  rw [snapshot, hc, error_bind]

/-- A run that carries out no order leaves the market as it was. -/
theorem executeAll_of_ledger_eq_nil {m : Market} {orders : List Order}
    (h : m.ledger orders = []) : m.executeAll orders = m := by
  induction orders with
  | nil => rfl
  | cons o orders ih =>
    rcases m.buy_refused_or_done o.outcome o.payment with ⟨e, hbuy⟩ | ⟨shares, after, hbuy⟩
    · rw [ledger_cons_of_error hbuy] at h
      rw [executeAll_cons, execute_of_error hbuy, ih h]
    · rw [ledger_cons_of_ok hbuy] at h
      exact absurd h (List.cons_ne_nil _ _)

/-- The pool of a market just opened is the number of its outcomes. -/
theorem poolValue_of_ofTerms {terms : Terms} {now minDuration : Number} {m : Market}
    (h : ofTerms terms now minDuration = .ok m) : m.poolValue = m.outcomes * one := by
  rw [poolValue, ratios_of_ofTerms h, List.map_replicate, expValue_zero, List.sum_replicate,
    nsmul_eq_mul]

theorem live_of_ofTerms {terms : Terms} {now minDuration : Number} {m : Market}
    (h : ofTerms terms now minDuration = .ok m) : m.Live := by
  intro x hx
  rw [ratios_of_ofTerms h] at hx
  rw [List.eq_of_mem_replicate hx]
  decide

/-- The cost of a market just opened is made of the logarithm of the number of its
outcomes. -/
theorem cost_of_ofTerms {terms : Terms} {now minDuration : Number} {m : Market}
    (h : ofTerms terms now minDuration = .ok m) :
    ∃ l, ln (m.outcomes * one) = .ok l ∧ 0 ≤ m.scale * l / one ∧
      m.cost = Width.u64.confine (m.scale * l / one) := by
  have hsound := (regular_of_ofTerms h).sound
  obtain ⟨l, hl, hl0, hcost⟩ := hsound.cost_eq_confine (live_of_ofTerms h)
  rw [poolValue_of_ofTerms h] at hl
  have hquot : 0 ≤ m.scale * l / one :=
    Int.ediv_nonneg (mul_nonneg hsound.scale_pos.le hl0) (le_of_lt FixedPoint.one_pos)
  exact ⟨l, hl, hquot, hcost⟩

/-- The cost of a market just opened is refused for an overflow just where the scale makes
too much of the logarithm of the number of outcomes. -/
theorem cost_overflow_iff {terms : Terms} {now minDuration : Number} {m : Market}
    (h : ofTerms terms now minDuration = .ok m) :
    m.cost = .error .mathOverflow ↔
      ∃ l, ln (m.outcomes * one) = .ok l ∧ Width.u64.greatest < m.scale * l / one := by
  obtain ⟨l, hl, hquot, hcost⟩ := cost_of_ofTerms h
  rw [hcost]
  constructor
  · intro hoverflow
    refine ⟨l, hl, ?_⟩
    by_contra hle
    rw [Width.confine_of_fits ⟨hquot, not_lt.mp hle⟩] at hoverflow
    exact absurd hoverflow (by simp)
  · rintro ⟨l', hl', hlarge⟩
    obtain rfl := Except.ok.inj (hl.symm.trans hl')
    exact Width.confine_of_not_fits fun hfits => absurd hfits.2 (not_le.mpr hlarge)

/-- The cost of a live market that has been traded fits, and before the first trade it
does unless the scale makes too much of the logarithm of the number of outcomes. -/
theorem cost_of_live {terms : Terms} {now minDuration : Number} {opened : Market}
    (hopen : ofTerms terms now minDuration = .ok opened) {orders : List Order}
    (hlive : (opened.executeAll orders).Live) :
    (∃ c, (opened.executeAll orders).cost = .ok c) ∨
      ((opened.executeAll orders).cost = .error .mathOverflow ∧ opened.ledger orders = [] ∧
        ∃ l, ln (opened.outcomes * one) = .ok l ∧
          Width.u64.greatest < opened.scale * l / one) := by
  have hopened := (regular_of_ofTerms hopen).sound
  have hsound := ((Reachable.opened terms now minDuration hopen).executeAll orders).regular.sound
  by_cases htraded : opened.ledger orders = []
  · rw [executeAll_of_ledger_eq_nil htraded]
    rcases hopened.cost_ok_or_overflow with hok | hoverflow
    · exact .inl hok
    · exact .inr ⟨hoverflow, htraded, (cost_overflow_iff hopen).mp hoverflow⟩
  · left
    have hmodest : (opened.executeAll orders).Modest := by
      rw [Modest, (executeAll_outcomes_scale opened orders).2]
      exact modest_of_ledger_ne_nil hopened htraded
    exact hsound.cost_ok hlive hmodest

/-- Every market that is opened and traded is live or dead.  A live one has prices, and
a cost unless it was never traded and its scale is too large.  A dead one answers
nothing and never changes again.  Neither asks for a logarithm outside the domain. -/
theorem live_or_dead {terms : Terms} {now minDuration : Number} {opened : Market}
    (hopen : ofTerms terms now minDuration = .ok opened) (orders : List Order) :
    let m := opened.executeAll orders
    (m.Live → (∃ ps, m.prices = .ok ps) ∧
      ((∃ c, m.cost = .ok c) ∨
        (m.cost = .error .mathOverflow ∧ opened.ledger orders = [] ∧
          ∃ l, ln (m.outcomes * one) = .ok l ∧ Width.u64.greatest < m.scale * l / one))) ∧
    (¬ m.Live → m.Dead) ∧
    m.WithinDomain := by
  intro m
  have hsound : m.Sound :=
    ((Reachable.opened terms now minDuration hopen).executeAll orders).regular.sound
  obtain ⟨houtcomes, hscale⟩ : m.outcomes = opened.outcomes ∧ m.scale = opened.scale :=
    executeAll_outcomes_scale opened orders
  refine ⟨?_, hsound.dead_of_not_live, hsound.withinDomain⟩
  intro hlive
  obtain ⟨ps, hps, -⟩ := hsound.prices_ok hlive
  rw [houtcomes, hscale]
  exact ⟨⟨ps, hps⟩, cost_of_live hopen hlive⟩

/-- The terms of a market of two outcomes. -/
def twoWay (scale : Int) : Terms where
  label := Text.ofString "two"
  admin := Text.ofString "admin"
  outcomes := 2
  scale := scale
  resolveAt := 3600

/-- The market on these terms, before its first trade. -/
def untraded (scale : Int) : Market where
  label := Text.ofString "two"
  admin := Text.ofString "admin"
  outcomes := 2
  scale := scale
  openedAt := 0
  resolveAt := 3600
  supplies := Vector.replicate maxOutcomes 0
  reserves := Vector.replicate maxOutcomes 0

/-- One market before its first trade, the same one killed by a payment of twenty
scales, and one whose scale is too large for a cost. -/
theorem live_or_dead_untraded :
    (ofTerms (twoWay 1) 0 60 = .ok (untraded 1) ∧
      ((untraded 1).Live ∧ (∃ ps, (untraded 1).prices = .ok ps) ∧
        ∃ c, (untraded 1).cost = .ok c) ∧
      ¬ ((untraded 1).executeAll [⟨0, 20⟩]).Live ∧ ((untraded 1).executeAll [⟨0, 20⟩]).Dead) ∧
    (ofTerms (twoWay (one * one * 100)) 0 60 = .ok (untraded (one * one * 100)) ∧
      (untraded (one * one * 100)).Live ∧
      (untraded (one * one * 100)).cost = .error .mathOverflow ∧
      ∃ l, ln (2 * one) = .ok l ∧ Width.u64.greatest < one * one * 100 * l / one) := by
  have hopen : ofTerms (twoWay 1) 0 60 = .ok (untraded 1) := by cbv
  have hlive : (untraded 1).Live := by decide +kernel
  have hzero : (untraded 1).cost = .ok 0 := by cbv
  have hratios : ((untraded 1).executeAll [⟨0, 20⟩]).ratios = [20693147179, 0] := by cbv
  have hdead : ¬ ((untraded 1).executeAll [⟨0, 20⟩]).Live := by
    rw [Live, hratios]
    decide
  have hlarge : ofTerms (twoWay (one * one * 100)) 0 60 = .ok (untraded (one * one * 100)) := by
    cbv
  have hlargeLive : (untraded (one * one * 100)).Live := by decide +kernel
  have hlargeCost : (untraded (one * one * 100)).cost = .error .mathOverflow := by cbv
  refine ⟨⟨hopen, ⟨hlive, ?_⟩, hdead, (live_or_dead hopen [⟨0, 20⟩]).2.1 hdead⟩,
    hlarge, hlargeLive, hlargeCost, ?_⟩
  · obtain ⟨hprices, hcost | ⟨herror, -⟩⟩ := (live_or_dead hopen []).1 hlive
    · exact ⟨hprices, hcost⟩
    · exact absurd (hzero.symm.trans herror) (by simp)
  · obtain ⟨-, ⟨c, hc⟩ | ⟨-, -, hlost⟩⟩ := (live_or_dead hlarge []).1 hlargeLive
    · exact absurd (hlargeCost.symm.trans hc) (by simp)
    · exact hlost

end PredictionMarket.Market
