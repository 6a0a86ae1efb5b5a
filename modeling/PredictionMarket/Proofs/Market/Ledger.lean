import Mathlib
import PredictionMarket.Proofs.Market.BoundedLoss

/-!
# What the ledger tells of a run

The ledger of a run lists the orders that were carried out, each with its shares.  It
accounts for the state of the market at the end, and it is short.

There are three groups.

* Conservation.  `paid` and `sold` sum up the entries of the ledger for one outcome, and
  `reserves_executeAll` and `supplies_executeAll` say that these sums are what a run adds.
  `Booked` is the invariant that entries fit and that the room beyond the outcomes stays
  empty.
* The least mint.  Each trade sells at least the scale times the logarithm of two, so it
  adds at least one of the `lots` that the ratios hold (`Sound.lots_buy`).
* The length of a run.  A market that trades is live and holds few lots
  (`Sound.lots_le`), which bounds the length of the ledger
  (`Sound.lots_add_length_ledger_le`).
-/

namespace PredictionMarket.Market

open FixedPoint

/-! ## Payments and shares by outcome -/

/-- The sum of what the entries for an outcome count. -/
def tally (count : Order × Int → Int) (j : Fin maxOutcomes) (entries : List (Order × Int)) :
    Int :=
  (entries.map fun entry => if entry.1.outcome = Number.ofInt j then count entry else 0).sum

/-- What the entries have paid for an outcome. -/
def paid : Fin maxOutcomes → List (Order × Int) → Int := tally fun entry => entry.1.payment

/-- What the entries have been sold of an outcome. -/
def sold : Fin maxOutcomes → List (Order × Int) → Int := tally fun entry => entry.2

theorem ofInt_inj {i j : Fin maxOutcomes} : Number.ofInt i = Number.ofInt j ↔ i = j := by
  constructor
  · intro h
    have hnum : (i.val : Int) = j.val := Number.ofInt_injective h
    exact Fin.ext (by exact_mod_cast hnum)
  · rintro rfl
    rfl

theorem get_set_add (v : Vector Int maxOutcomes) (i j : Fin maxOutcomes) (x : Int) :
    (v.set i (v.get i + x) i.isLt).get j = v.get j + if i = j then x else 0 := by
  by_cases h : i = j
  · subst h
    rw [if_pos rfl]
    exact Vector.getElem_set_self i.isLt
  · have hne : i.val ≠ j.val := fun hval => h (Fin.ext hval)
    rw [if_neg h, add_zero]
    exact Vector.getElem_set_ne i.isLt j.isLt hne

/-- A trade adds its shares to the supply of the outcome sold, and to no other. -/
theorem supplies_buy {m after : Market} {i : Number} {payment shares : Int}
    (hbuy : m.buy i payment = (.ok shares, after)) (j : Fin maxOutcomes) :
    after.supplies.get j = m.supplies.get j + if i = Number.ofInt j then shares else 0 := by
  obtain ⟨k, hindex, -, -, -, rfl⟩ := buy_eq_ok_iff.mp hbuy
  obtain ⟨rfl, -⟩ := outcome_eq_ok hindex
  rw [credit, get_set_add]
  simp only [ofInt_inj]

/-- A trade adds its payment to the reserve of the outcome sold, and to no other. -/
theorem reserves_buy {m after : Market} {i : Number} {payment shares : Int}
    (hbuy : m.buy i payment = (.ok shares, after)) (j : Fin maxOutcomes) :
    after.reserves.get j = m.reserves.get j + if i = Number.ofInt j then payment else 0 := by
  obtain ⟨k, hindex, -, -, -, rfl⟩ := buy_eq_ok_iff.mp hbuy
  obtain ⟨rfl, -⟩ := outcome_eq_ok hindex
  rw [credit, get_set_add]
  simp only [ofInt_inj]

/-- A book to which every trade adds what its entry counts has the tally of the ledger
added by a run. -/
theorem book_executeAll (book : Market → Fin maxOutcomes → Int) {count : Order × Int → Int}
    (hbook : ∀ {m after : Market} {o : Order} {shares : Int},
      m.buy o.outcome o.payment = (.ok shares, after) →
        ∀ j, book after j = book m j + if o.outcome = Number.ofInt j then count (o, shares) else 0)
    (m : Market) (orders : List Order) (j : Fin maxOutcomes) :
    book (m.executeAll orders) j = book m j + tally count j (m.ledger orders) := by
  induction orders generalizing m with
  | nil => exact (add_zero _).symm
  | cons o orders ih =>
    rw [executeAll_cons]
    rcases m.buy_refused_or_done o.outcome o.payment with ⟨e, hbuy⟩ | ⟨shares, after, hbuy⟩
    · rw [execute_of_error hbuy, ledger_cons_of_error hbuy, ih]
    · rw [execute_of_ok hbuy, ledger_cons_of_ok hbuy, ih, hbook hbuy, tally, tally, List.map_cons,
        List.sum_cons, add_assoc]

/-- A run adds to each supply what its ledger sells. -/
theorem supplies_executeAll (m : Market) (orders : List Order) (j : Fin maxOutcomes) :
    (m.executeAll orders).supplies.get j = m.supplies.get j + sold j (m.ledger orders) :=
  book_executeAll (fun m j => m.supplies.get j) supplies_buy m orders j

/-- A run adds to each reserve what its ledger pays. -/
theorem reserves_executeAll (m : Market) (orders : List Order) (j : Fin maxOutcomes) :
    (m.executeAll orders).reserves.get j = m.reserves.get j + paid j (m.ledger orders) :=
  book_executeAll (fun m j => m.reserves.get j) reserves_buy m orders j

/-! ## The entries of the books -/

/-- The books of a market: all entries fit, and those beyond its outcomes are empty. -/
structure Booked (m : Market) : Prop where
  /-- Every supply fits. -/
  supply_fits : ∀ j, Width.u64.Fits (m.supplies.get j)
  /-- Every reserve fits. -/
  reserve_fits : ∀ j, Width.u64.Fits (m.reserves.get j)
  /-- Nothing is sold beyond the outcomes. -/
  supply_eq_zero : ∀ j : Fin maxOutcomes, m.outcomes ≤ j → m.supplies.get j = 0
  /-- Nothing is paid beyond the outcomes. -/
  reserve_eq_zero : ∀ j : Fin maxOutcomes, m.outcomes ≤ j → m.reserves.get j = 0

theorem booked_of_ofTerms {terms : Terms} {now minDuration : Number} {m : Market}
    (h : ofTerms terms now minDuration = .ok m) : m.Booked := by
  obtain ⟨n, -, -, rfl⟩ := ofTerms_eq_ok h
  have hempty : ∀ j : Fin maxOutcomes, (Vector.replicate maxOutcomes (0 : Int)).get j = 0 :=
    fun j => Vector.getElem_replicate j.isLt
  have hfits : ∀ j : Fin maxOutcomes,
      Width.u64.Fits ((Vector.replicate maxOutcomes (0 : Int)).get j) := by
    intro j
    rw [hempty]
    decide
  exact ⟨hfits, hfits, fun j _ => hempty j, fun j _ => hempty j⟩

/-- A sum of entries that was checked fits, and all other entries are as before. -/
theorem fits_get_set_add {v : Vector Int maxOutcomes} (h : ∀ j, Width.u64.Fits (v.get j))
    {i : Fin maxOutcomes} {x : Int} (hsum : Width.u64.Fits (v.get i + x)) (j : Fin maxOutcomes) :
    Width.u64.Fits ((v.set i (v.get i + x) i.isLt).get j) := by
  rw [get_set_add]
  split
  · rename_i hij
    subst hij
    exact hsum
  · rw [add_zero]
    exact h j

/-- An entry beyond the outcomes is not the one that a trade changes. -/
theorem get_set_add_of_le {v : Vector Int maxOutcomes} {n : Nat} {i j : Fin maxOutcomes}
    (hi : i < n) (hj : n ≤ j) (x : Int) : (v.set i (v.get i + x) i.isLt).get j = v.get j := by
  have hne : i ≠ j := by
    rintro rfl
    omega
  rw [get_set_add, if_neg hne, add_zero]

theorem Booked.buy {m after : Market} (h : m.Booked) {i : Number} {payment shares : Int}
    (hbuy : m.buy i payment = (.ok shares, after)) : after.Booked := by
  obtain ⟨j, hindex, -, hsupply, hreserve, rfl⟩ := buy_eq_ok_iff.mp hbuy
  obtain ⟨-, hj⟩ := outcome_eq_ok hindex
  refine ⟨fits_get_set_add h.supply_fits hsupply, fits_get_set_add h.reserve_fits hreserve,
    ?_, ?_⟩
  · intro k hk
    exact (get_set_add_of_le hj hk shares).trans (h.supply_eq_zero k hk)
  · intro k hk
    exact (get_set_add_of_le hj hk payment).trans (h.reserve_eq_zero k hk)

/-- Every supply of a reachable market is a multiple of the scale. -/
theorem Booked.scale_dvd_supply {m : Market} (h : m.Booked) (hregular : m.Regular)
    (j : Fin maxOutcomes) : m.scale ∣ m.supplies.get j := by
  rcases lt_or_ge j.val m.outcomes with hj | hj
  · exact hregular.dvd_supply _ (m.supply_mem hj)
  · rw [h.supply_eq_zero j hj]
    exact dvd_zero _

/-- A trade takes nothing away from the books. -/
theorem Sound.books_le_buy {m after : Market} (h : m.Sound) {i : Number} {payment shares : Int}
    (hbuy : m.buy i payment = (.ok shares, after)) (j : Fin maxOutcomes) :
    m.supplies.get j ≤ after.supplies.get j ∧ m.reserves.get j ≤ after.reserves.get j := by
  obtain ⟨k, l, -, -, hm, -⟩ := h.trade hbuy
  have hshares := hm.shares_pos
  have hpayment := hm.payment_pos
  rw [supplies_buy hbuy j, reserves_buy hbuy j]
  constructor
  · split <;> omega
  · split <;> omega

/-- No entry of the books of a sound market ever goes down. -/
theorem Sound.books_le_executeAll {m : Market} (h : m.Sound) (orders : List Order)
    (j : Fin maxOutcomes) :
    m.supplies.get j ≤ (m.executeAll orders).supplies.get j ∧
      m.reserves.get j ≤ (m.executeAll orders).reserves.get j := by
  -- soundness goes along, as a step only takes nothing away from a sound market
  have hrun : (m.executeAll orders).Sound ∧
      m.supplies.get j ≤ (m.executeAll orders).supplies.get j ∧
      m.reserves.get j ≤ (m.executeAll orders).reserves.get j := by
    refine executeAll_induction (P := fun m' => m'.Sound ∧ m.supplies.get j ≤ m'.supplies.get j ∧
      m.reserves.get j ≤ m'.reserves.get j) ?_ ⟨h, le_rfl, le_rfl⟩ orders
    rintro m' i payment shares after ⟨hsound, hsupply, hreserve⟩ hbuy
    obtain ⟨hsupply', hreserve'⟩ := hsound.books_le_buy hbuy j
    exact ⟨hsound.buy hbuy, hsupply.trans hsupply', hreserve.trans hreserve'⟩
  exact hrun.2

/-- The books at the end of a run are the sums of its ledger.  They fit, they are empty
beyond the outcomes, the supplies are multiples of the scale, and nothing that comes later
takes away from them.  Beside the books a run changes nothing, and an order that is refused
changes nothing at all. -/
theorem executeAll_conserves {terms : Terms} {now minDuration : Number} {opened : Market}
    (hopen : ofTerms terms now minDuration = .ok opened) (orders : List Order) :
    let m := opened.executeAll orders
    let entries := opened.ledger orders
    (∀ j, m.reserves.get j = paid j entries ∧ m.supplies.get j = sold j entries ∧
      m.scale ∣ m.supplies.get j ∧ m.supplies.get j = m.scale * m.ratio j) ∧
    m.Booked ∧ SameTerms opened m ∧
    (∀ later j, m.supplies.get j ≤ (m.executeAll later).supplies.get j ∧
      m.reserves.get j ≤ (m.executeAll later).reserves.get j) ∧
    ∀ i payment e, (m.buy i payment).1 = .error e →
      (m.buy i payment).2 = m ∧ m.execute ⟨i, payment⟩ = m := by
  intro m entries
  have hregular : m.Regular :=
    ((Reachable.opened terms now minDuration hopen).executeAll orders).regular
  have hbooked : m.Booked :=
    executeAll_induction (fun h hbuy => h.buy hbuy) (booked_of_ofTerms hopen) orders
  have hopened : ∀ j, opened.supplies.get j = 0 ∧ opened.reserves.get j = 0 := by
    obtain ⟨n, -, -, rfl⟩ := ofTerms_eq_ok hopen
    intro j
    exact ⟨Vector.getElem_replicate j.isLt, Vector.getElem_replicate j.isLt⟩
  refine ⟨?_, hbooked, sameTerms_executeAll opened orders,
    hregular.sound.books_le_executeAll, fun i payment e hbuy => ⟨snd_buy_of_error hbuy, snd_buy_of_error hbuy⟩⟩
  intro j
  have hdvd := hbooked.scale_dvd_supply hregular j
  refine ⟨?_, ?_, hdvd, (Int.mul_tdiv_cancel' hdvd).symm⟩
  · rw [reserves_executeAll opened orders j, (hopened j).2, zero_add]
  · rw [supplies_executeAll opened orders j, (hopened j).1, zero_add]

theorem executeAll_conserves_unsold :
    let m := unsold.executeAll mixedOrders
    let entries := unsold.ledger mixedOrders
    ofTerms threeWay 0 60 = .ok unsold ∧
    entries = [(⟨1, 800⟩, 1542576222000), (⟨2, 500⟩, 1673588960000)] ∧
    (∀ j, m.reserves.get j = paid j entries ∧ m.supplies.get j = sold j entries ∧
      m.scale ∣ m.supplies.get j ∧ m.supplies.get j = m.scale * m.ratio j) ∧
    m.Booked ∧ SameTerms unsold m ∧
    (∀ later j, m.supplies.get j ≤ (m.executeAll later).supplies.get j ∧
      m.reserves.get j ≤ (m.executeAll later).reserves.get j) ∧
    ∀ i payment e, (m.buy i payment).1 = .error e →
      (m.buy i payment).2 = m ∧ m.execute ⟨i, payment⟩ = m := by
  have hopen : ofTerms threeWay 0 60 = .ok unsold := by cbv
  have hledger : unsold.ledger mixedOrders =
      [(⟨1, 800⟩, 1542576222000), (⟨2, 500⟩, 1673588960000)] := by cbv
  exact ⟨hopen, hledger, executeAll_conserves hopen mixedOrders⟩

/-! ## The length of a run -/

/-- The least mint makes the scale the logarithm of two times over. -/
theorem ln_two : ln (2 * one) = .ok 693147180 := by cbv

/-- How many least mints the ratios hold, each outcome counted on its own. -/
def lots (m : Market) : Int := (m.ratios.map fun x => x / 693147180).sum

/-- A trade adds at least one lot. -/
theorem Sound.lots_buy {m after : Market} (h : m.Sound) {i : Number} {payment shares : Int}
    (hbuy : m.buy i payment = (.ok shares, after)) : m.lots + 1 ≤ after.lots := by
  obtain ⟨j, l, -, hj, -, -, hlow, -, -, rfl⟩ := h.trade hbuy
  rw [lots, lots, h.ratios_credit hj (by omega),
    sum_map_set (fun x => x / 693147180) (m.getElem?_ratios hj)]
  omega

/-- A live market holds at most twenty-eight lots of each outcome. -/
theorem Sound.lots_le {m : Market} (h : m.Sound) (hlive : m.Live) :
    m.lots ≤ 28 * m.outcomes := by
  have hle : ∀ q ∈ m.ratios.map (fun x => x / 693147180), q ≤ 28 := by
    intro q hq
    obtain ⟨x, hx, rfl⟩ := List.mem_map.mp hq
    have hlimit : x ≤ 20000000000 := hlive x hx
    omega
  have hcard := List.sum_le_card_nsmul _ _ hle
  rw [List.length_map, length_ratios h.outcomes_le, nsmul_eq_mul, mul_comm] at hcard
  exact hcard

/-- The trades of a run and the lots held before it are together at most one more than
the lots that a live market can hold: only the last trade may be one too many. -/
theorem Sound.lots_add_length_ledger_le {m : Market} (h : m.Sound) {orders : List Order}
    (htraded : m.ledger orders ≠ []) :
    m.lots + (m.ledger orders).length ≤ 28 * m.outcomes + 1 := by
  induction orders generalizing m with
  | nil => exact absurd (ledger_nil m) htraded
  | cons o orders ih =>
    rcases m.buy_refused_or_done o.outcome o.payment with ⟨e, hbuy⟩ | ⟨shares, after, hbuy⟩
    · rw [ledger_cons_of_error hbuy] at htraded ⊢
      exact ih h htraded
    · have hlots := h.lots_buy hbuy
      obtain ⟨j, l, -, hj, hm, -, hlow, -, -, rfl⟩ := h.trade hbuy
      have hlive := h.lots_le hm.live
      rw [ledger_cons_of_ok hbuy, List.length_cons]
      by_cases hlast : (m.credit j (m.scale * l) o.payment).ledger orders = []
      · rw [hlast, List.length_nil]
        push_cast
        omega
      · have hrest := ih (h.credit hj (by omega) o.payment) hlast
        rw [credit_outcomes] at hrest
        push_cast
        omega

theorem lots_of_ofTerms {terms : Terms} {now minDuration : Number} {m : Market}
    (h : ofTerms terms now minDuration = .ok m) : m.lots = 0 := by
  rw [lots, ratios_of_ofTerms h, List.map_replicate, Int.zero_ediv, List.sum_replicate, smul_zero]

/-- Every trade mints a multiple of the scale, no less than the logarithm of two makes.
So a market carries out at most twenty-eight orders for each of its outcomes and one more,
and none at all if the least mint does not fit. -/
theorem trades_are_few {terms : Terms} {now minDuration : Number} {opened : Market}
    (hopen : ofTerms terms now minDuration = .ok opened) (orders : List Order) :
    let m := opened.executeAll orders
    ln (2 * one) = .ok 693147180 ∧
    (∀ i payment shares after, m.buy i payment = (.ok shares, after) →
      ∃ l, 693147180 ≤ l ∧ shares = l * m.scale) ∧
    (opened.ledger orders).length ≤ 28 * opened.outcomes + 1 ∧
    (Width.u64.greatest < 693147180 * opened.scale →
      ∀ i payment, ∃ e, m.buy i payment = (.error e, m)) := by
  intro m
  have hopened := (regular_of_ofTerms hopen).sound
  have hsound : m.Sound :=
    ((Reachable.opened terms now minDuration hopen).executeAll orders).regular.sound
  refine ⟨ln_two, ?_, ?_, ?_⟩
  · intro i payment shares after hbuy
    obtain ⟨j, l, -, -, -, -, hlow, -, hshares, -⟩ := hsound.trade hbuy
    exact ⟨l, hlow, hshares.trans (mul_comm _ _)⟩
  · by_cases htraded : opened.ledger orders = []
    · rw [htraded]
      exact Nat.zero_le _
    · have hle := hopened.lots_add_length_ledger_le htraded
      rw [lots_of_ofTerms hopen] at hle
      omega
  · intro hlarge i payment
    rcases m.buy_refused_or_done i payment with hrefused | ⟨shares, after, hbuy⟩
    · exact hrefused
    · obtain ⟨j, l, -, hj, hm, -⟩ := hsound.trade hbuy
      have hmodest : 693147180 * m.scale ≤ Width.u64.greatest := hm.scale_le hsound hj
      rw [(sameTerms_executeAll opened orders).scale] at hmodest
      exact absurd hmodest (not_le.mpr hlarge)

theorem trades_are_few_unsold :
    let m := unsold.executeAll mixedOrders
    ofTerms threeWay 0 60 = .ok unsold ∧
    m.buy 0 700 = (.ok 2498092522000, m.credit 0 2498092522000 700) ∧
    ln (2 * one) = .ok 693147180 ∧
    (∀ i payment shares after, m.buy i payment = (.ok shares, after) →
      ∃ l, 693147180 ≤ l ∧ shares = l * m.scale) ∧
    (unsold.ledger mixedOrders).length ≤ 28 * unsold.outcomes + 1 ∧
    (Width.u64.greatest < 693147180 * unsold.scale →
      ∀ i payment, ∃ e, m.buy i payment = (.error e, m)) := by
  have hopen : ofTerms threeWay 0 60 = .ok unsold := by cbv
  have hbuy : (unsold.executeAll mixedOrders).buy 0 700 =
      (.ok 2498092522000, (unsold.executeAll mixedOrders).credit 0 2498092522000 700) := by cbv
  exact ⟨hopen, hbuy, trades_are_few hopen mixedOrders⟩

end PredictionMarket.Market
