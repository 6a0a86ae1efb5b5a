import PredictionMarket.Proofs.Market.Valuation

/-!
# Runs of orders

A market is `Reachable` if it can be opened and traded into its state.  The orders
that a run refuses leave no trace, so the markets of all runs are the reachable ones
(`reachable_iff`), and an invariant of `buy` holds at the end of every run
(`executeAll_induction`).

`Regular` is the invariant that all reachable markets share: every supply is a
multiple of the scale, and none lies strictly between zero and the least mint.

`SameTerms` is what no run touches.

`ledger` lists the orders that a run carries out.  A run with an entry there has a
scale of modest size (`modest_of_ledger_ne_nil`), which no opening asks for.
-/

namespace PredictionMarket.Market

open FixedPoint

/-! ## One order after the other -/

theorem execute_of_ok {m after : Market} {o : Order} {shares : Int}
    (h : m.buy o.outcome o.payment = (.ok shares, after)) : m.execute o = after :=
  congrArg Prod.snd h

theorem execute_of_error {m : Market} {o : Order} {e : MarketError}
    (h : m.buy o.outcome o.payment = (.error e, m)) : m.execute o = m :=
  congrArg Prod.snd h

@[simp] theorem executeAll_nil (m : Market) : m.executeAll [] = m := rfl

@[simp] theorem executeAll_cons (m : Market) (o : Order) (orders : List Order) :
    m.executeAll (o :: orders) = (m.execute o).executeAll orders := rfl

theorem executeAll_append (m : Market) (earlier later : List Order) :
    m.executeAll (earlier ++ later) = (m.executeAll earlier).executeAll later :=
  List.foldl_append

/-- What every trade preserves holds after every run. -/
theorem executeAll_induction {P : Market → Prop}
    (hstep : ∀ {m i payment shares after}, P m → m.buy i payment = (.ok shares, after) → P after)
    {m : Market} (h : P m) (orders : List Order) : P (m.executeAll orders) := by
  induction orders generalizing m with
  | nil => exact h
  | cons o orders ih =>
    rw [executeAll_cons]
    apply ih
    rcases m.buy_refused_or_done o.outcome o.payment with ⟨e, hbuy⟩ | ⟨shares, after, hbuy⟩
    · rw [execute_of_error hbuy]
      exact h
    · rw [execute_of_ok hbuy]
      exact hstep h hbuy

/-- Two markets on the same terms, opened at the same time. -/
structure SameTerms (m m' : Market) : Prop where
  /-- The name stays. -/
  label : m'.label = m.label
  /-- So does the one who may administer the market. -/
  admin : m'.admin = m.admin
  /-- The number of outcomes stays. -/
  outcomes : m'.outcomes = m.outcomes
  /-- The scale stays. -/
  scale : m'.scale = m.scale
  /-- The time of the creation stays. -/
  openedAt : m'.openedAt = m.openedAt
  /-- The time at which trading ends stays. -/
  resolveAt : m'.resolveAt = m.resolveAt

@[refl] theorem SameTerms.refl (m : Market) : SameTerms m m := ⟨rfl, rfl, rfl, rfl, rfl, rfl⟩

theorem SameTerms.buy {m m' after : Market} (h : SameTerms m m') {i : Number} {payment shares : Int}
    (hbuy : m'.buy i payment = (.ok shares, after)) : SameTerms m after := by
  obtain ⟨j, -, -, -, -, rfl⟩ := buy_eq_ok_iff.mp hbuy
  exact ⟨h.label, h.admin, h.outcomes, h.scale, h.openedAt, h.resolveAt⟩

/-- No run changes the terms. -/
theorem sameTerms_executeAll (m : Market) (orders : List Order) :
    SameTerms m (m.executeAll orders) :=
  executeAll_induction (fun h hbuy => h.buy hbuy) (.refl m) orders

theorem executeAll_outcomes_scale (m : Market) (orders : List Order) :
    (m.executeAll orders).outcomes = m.outcomes ∧ (m.executeAll orders).scale = m.scale :=
  ⟨(sameTerms_executeAll m orders).outcomes, (sameTerms_executeAll m orders).scale⟩

/-- The orders that a run carries out, each with the shares that it mints. -/
def ledger (m : Market) : List Order → List (Order × Int)
  | [] => []
  | o :: orders =>
    match m.buy o.outcome o.payment with
    | (.ok shares, after) => (o, shares) :: after.ledger orders
    | (.error _, after) => after.ledger orders

/-! ## Reachable markets -/

/-- The markets that are opened on some terms and then traded. -/
inductive Reachable : Market → Prop where
  /-- A market just opened. -/
  | opened {m : Market} (terms : Terms) (now minDuration : Number)
      (h : ofTerms terms now minDuration = .ok m) : Reachable m
  /-- A market after one more trade. -/
  | traded {m after : Market} {i : Number} {payment shares : Int} (h : Reachable m)
      (hbuy : m.buy i payment = (.ok shares, after)) : Reachable after

theorem Reachable.executeAll {m : Market} (h : m.Reachable) (orders : List Order) :
    (m.executeAll orders).Reachable :=
  executeAll_induction Reachable.traded h orders

/-- The reachable markets are those at the end of a run. -/
theorem reachable_iff {m : Market} :
    m.Reachable ↔ ∃ (terms : Terms) (now minDuration : Number) (opened : Market)
      (orders : List Order), ofTerms terms now minDuration = .ok opened ∧
        m = opened.executeAll orders := by
  constructor
  · intro h
    induction h with
    | opened terms now minDuration hopen =>
      exact ⟨terms, now, minDuration, _, [], hopen, rfl⟩
    | @traded m after i payment shares _ hbuy ih =>
      obtain ⟨terms, now, minDuration, opened, orders, hopen, rfl⟩ := ih
      refine ⟨terms, now, minDuration, opened, orders ++ [⟨i, payment⟩], hopen, ?_⟩
      rw [executeAll_append, executeAll_cons, executeAll_nil, execute_of_ok hbuy]
  · rintro ⟨terms, now, minDuration, opened, orders, hopen, rfl⟩
    exact (Reachable.opened terms now minDuration hopen).executeAll orders

/-! ## The invariant -/

/-- What all reachable markets have in common. -/
structure Regular (m : Market) : Prop where
  /-- The market is sound. -/
  sound : m.Sound
  /-- Every supply is a multiple of the scale. -/
  dvd_supply : ∀ s ∈ m.activeSupplies, m.scale ∣ s
  /-- An outcome has been sold not at all, or at least as often as the least mint. -/
  ratio_eq_zero_or : ∀ x ∈ m.ratios, x = 0 ∨ 693147180 ≤ x
  /-- Ninety is above all ratios. -/
  ratio_le : ∀ x ∈ m.ratios, x ≤ 90000000000

/-- How many outcomes a count may ask for. -/
theorem outcomeCount_bounds {q : Number} {n : Nat} (h : outcomeCount q = .ok n) :
    minOutcomes ≤ n ∧ n ≤ maxOutcomes := by
  unfold outcomeCount at h
  split at h
  · exact absurd h (by simp)
  rename_i z _
  split at h
  · exact absurd h (by simp)
  rename_i hlow
  split at h
  · exact absurd h (by simp)
  rename_i hhigh
  obtain rfl := Except.ok.inj h
  omega

/-- What an opened market looks like. -/
theorem ofTerms_eq_ok {terms : Terms} {now minDuration : Number} {m : Market}
    (h : ofTerms terms now minDuration = .ok m) :
    ∃ n, outcomeCount terms.outcomes = .ok n ∧ 0 < terms.scale ∧
      m = {
        label := terms.label
        admin := terms.admin
        outcomes := n
        scale := terms.scale
        openedAt := now
        resolveAt := terms.resolveAt
        supplies := Vector.replicate maxOutcomes 0
        reserves := Vector.replicate maxOutcomes 0 } := by
  unfold ofTerms at h
  obtain ⟨n, hcount, h⟩ := bind_eq_ok_iff.mp h
  split at h
  · exact absurd h (by simp)
  rename_i hscale
  split at h
  · exact absurd h (by simp)
  split at h
  · exact absurd h (by simp)
  exact ⟨n, hcount, not_le.mp hscale, (Except.ok.inj h).symm⟩

/-- An opened market has sold nothing. -/
theorem activeSupplies_of_ofTerms {terms : Terms} {now minDuration : Number} {m : Market}
    (h : ofTerms terms now minDuration = .ok m) :
    m.activeSupplies = List.replicate m.outcomes 0 := by
  obtain ⟨n, hcount, -, rfl⟩ := ofTerms_eq_ok h
  rw [activeSupplies, Vector.toList_replicate, List.take_replicate,
    min_eq_left (outcomeCount_bounds hcount).2]

theorem ratios_of_ofTerms {terms : Terms} {now minDuration : Number} {m : Market}
    (h : ofTerms terms now minDuration = .ok m) : m.ratios = List.replicate m.outcomes 0 := by
  rw [ratios, activeSupplies_of_ofTerms h, List.map_replicate, Int.zero_tdiv]

theorem regular_of_ofTerms {terms : Terms} {now minDuration : Number} {m : Market}
    (h : ofTerms terms now minDuration = .ok m) : m.Regular := by
  have hsupply : ∀ s ∈ m.activeSupplies, s = 0 := by
    rw [activeSupplies_of_ofTerms h]
    exact fun s => List.eq_of_mem_replicate
  have hratio : ∀ x ∈ m.ratios, x = 0 := by
    rw [ratios_of_ofTerms h]
    exact fun x => List.eq_of_mem_replicate
  refine ⟨?_, ?_, ?_, ?_⟩
  · obtain ⟨n, hcount, hscale, rfl⟩ := ofTerms_eq_ok h
    obtain ⟨hlow, hhigh⟩ := outcomeCount_bounds hcount
    exact ⟨hlow, hhigh, hscale, fun s hs => le_of_eq (hsupply s hs).symm⟩
  · intro s hs
    rw [hsupply s hs]
    exact dvd_zero _
  · intro x hx
    exact Or.inl (hratio x hx)
  · intro x hx
    rw [hratio x hx]
    norm_num

theorem Regular.buy {m after : Market} (h : m.Regular) {i : Number} {payment shares : Int}
    (hbuy : m.buy i payment = (.ok shares, after)) : after.Regular := by
  obtain ⟨j, l, -, hj, hm, -, hlow, hhigh, -, rfl⟩ := h.sound.trade hbuy
  have hl0 : 0 ≤ l := by omega
  have hown := h.sound.own_nonneg hj
  have hratios := h.sound.ratios_credit hj hl0 payment
  refine ⟨h.sound.credit hj hl0 payment, ?_, ?_, ?_⟩
  · intro s hs
    rw [activeSupplies_credit] at hs
    rw [credit_scale]
    rcases List.mem_or_eq_of_mem_set hs with hold | rfl
    · exact h.dvd_supply s hold
    · exact dvd_add (h.dvd_supply _ (m.supply_mem hj)) (dvd_mul_right _ _)
  · intro x hx
    rw [hratios] at hx
    rcases List.mem_or_eq_of_mem_set hx with hold | rfl
    · exact h.ratio_eq_zero_or x hold
    · right
      omega
  · intro x hx
    rw [hratios] at hx
    rcases List.mem_or_eq_of_mem_set hx with hold | rfl
    · exact h.ratio_le x hold
    · -- the outcome was within the limit of the exponential before
      have hlimit : m.ratio j ≤ 20000000000 := hm.live _ (m.ratio_mem hj)
      omega

theorem Reachable.regular {m : Market} (h : m.Reachable) : m.Regular := by
  induction h with
  | opened terms now minDuration hopen => exact regular_of_ofTerms hopen
  | traded _ hbuy ih => exact ih.buy hbuy

/-- A supply is its ratio times the scale. -/
theorem Regular.supply_eq {m : Market} (h : m.Regular) {j : Fin maxOutcomes}
    (hj : j < m.outcomes) : m.supplies.get j = m.scale * m.ratio j := by
  rw [ratio, Int.mul_tdiv_cancel' (h.dvd_supply _ (m.supply_mem hj))]

/-! ## The orders carried out -/

@[simp] theorem ledger_nil (m : Market) : m.ledger [] = [] := rfl

theorem ledger_cons_of_ok {m after : Market} {o : Order} {shares : Int}
    (h : m.buy o.outcome o.payment = (.ok shares, after)) (orders : List Order) :
    m.ledger (o :: orders) = (o, shares) :: after.ledger orders := by
  rw [ledger, h]

theorem ledger_cons_of_error {m : Market} {o : Order} {e : MarketError}
    (h : m.buy o.outcome o.payment = (.error e, m)) (orders : List Order) :
    m.ledger (o :: orders) = m.ledger orders := by
  rw [ledger, h]

/-- A run that trades at all has a scale whose least mint fits. -/
theorem modest_of_ledger_ne_nil {m : Market} (h : m.Sound) {orders : List Order}
    (htraded : m.ledger orders ≠ []) : m.Modest := by
  induction orders with
  | nil => exact absurd (ledger_nil m) htraded
  | cons o orders ih =>
    rcases m.buy_refused_or_done o.outcome o.payment with ⟨e, hbuy⟩ | ⟨shares, after, hbuy⟩
    · rw [ledger_cons_of_error hbuy] at htraded
      exact ih htraded
    · obtain ⟨j, l, -, hj, hm, -⟩ := h.trade hbuy
      exact hm.modest h hj

end PredictionMarket.Market
