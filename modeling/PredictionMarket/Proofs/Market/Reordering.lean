import Mathlib
import PredictionMarket.Proofs.Market.Admission
import PredictionMarket.Proofs.Market.Run

/-!
# No outcome is privileged

What a market says of an outcome does not depend on the place where the outcome stands.
`reorder` moves the outcomes of a market to other places.  Cost and pricing see the exponentials
only as a sum, and whether a sum of naturals fits does not depend on the order in which it is
checked (`pool_eq`), so neither changes (`cost_reorder`, `mint_reorder`).  A trade therefore
commutes with the move (`buy_reorder`), and so does a whole run (`executeAll_reorder`).

Prices are the one exception.  Of outcomes that have lost as much by the rounding the earlier
ones get the spare units, so a price may change by a unit, unless all have lost differently
(`pricesOf_reorder`).
-/

namespace PredictionMarket.Market

open FixedPoint

/-! ## Moving outcomes -/

/-- The entries of a vector, the entry at the place `j` moved to the place `σ j`. -/
def rearrange {k : Nat} (σ : Equiv.Perm (Fin k)) (v : Vector Int k) : Vector Int k :=
  Vector.ofFn fun j => v.get (σ.symm j)

theorem get_rearrange {k : Nat} (σ : Equiv.Perm (Fin k)) (v : Vector Int k) (j : Fin k) :
    (rearrange σ v).get (σ j) = v.get j := by
  rw [rearrange, Vector.get_ofFn, Equiv.symm_apply_apply]

theorem rearrange_set {k : Nat} (σ : Equiv.Perm (Fin k)) (v : Vector Int k) (j : Fin k) (x : Int) :
    rearrange σ (v.set j x j.isLt) = (rearrange σ v).set (σ j) x (σ j).isLt := by
  ext i hi
  have hplace : j.val = (σ.symm ⟨i, hi⟩).val ↔ (σ j).val = i := by
    rw [← Fin.ext_iff, Equiv.eq_symm_apply, Fin.ext_iff]
  simp only [rearrange, Vector.getElem_set, Vector.getElem_ofFn, Vector.get_eq_getElem, hplace]

/-- The permutation that moves the outcomes, and leaves the room behind them as it is. -/
def relocate {n : Nat} (hroom : n ≤ maxOutcomes) (π : Equiv.Perm (Fin n)) :
    Equiv.Perm (Fin maxOutcomes) :=
  π.viaFintypeEmbedding (Fin.castLEEmb hroom)

theorem relocate_castLE {n : Nat} (hroom : n ≤ maxOutcomes) (π : Equiv.Perm (Fin n)) (i : Fin n) :
    relocate hroom π (i.castLE hroom) = (π i).castLE hroom :=
  π.viaFintypeEmbedding_apply_image (Fin.castLEEmb hroom) i

/-- The market with the outcome at each place `i` moved to the place `π i`.  It does not unfold
by itself, as a market would then be compared with the moved one entry by entry. -/
@[irreducible] def reorder (m : Market) {n : Nat} (hroom : n ≤ maxOutcomes)
    (π : Equiv.Perm (Fin n)) : Market :=
  { m with
    supplies := rearrange (relocate hroom π) m.supplies
    reserves := rearrange (relocate hroom π) m.reserves }

/-- The orders of payments for outcomes. -/
def ordersFor {n : Nat} (trades : List (Fin n × Int)) : List Order :=
  trades.map fun (i, payment) => ⟨Number.ofInt i, payment⟩

@[simp] theorem ordersFor_cons {n : Nat} (i : Fin n) (payment : Int)
    (trades : List (Fin n × Int)) :
    ordersFor ((i, payment) :: trades) = ⟨Number.ofInt i, payment⟩ :: ordersFor trades := rfl

section Reorder

variable {m : Market} {n : Nat} (hroom : n ≤ maxOutcomes) (π : Equiv.Perm (Fin n))

@[simp] theorem reorder_outcomes : (m.reorder hroom π).outcomes = m.outcomes := by
  rw [reorder]

@[simp] theorem reorder_scale : (m.reorder hroom π).scale = m.scale := by
  rw [reorder]

theorem supply_reorder (i : Fin n) :
    (m.reorder hroom π).supplies.get ((π i).castLE hroom) = m.supplies.get (i.castLE hroom) := by
  rw [reorder, ← relocate_castLE, get_rearrange]

theorem reserve_reorder (i : Fin n) :
    (m.reorder hroom π).reserves.get ((π i).castLE hroom) = m.reserves.get (i.castLE hroom) := by
  rw [reorder, ← relocate_castLE, get_rearrange]

theorem ratio_reorder (i : Fin n) :
    (m.reorder hroom π).ratio ((π i).castLE hroom) = m.ratio (i.castLE hroom) := by
  rw [ratio, supply_reorder, reorder_scale, ratio]

/-! ## Cost and trades -/

/-- The sum of the exponentials, over the outcomes of a market that has `n` of them. -/
theorem poolValue_eq_sum_expValue (hn : m.outcomes = n) :
    m.poolValue = ∑ i : Fin n, expValue (m.ratio (i.castLE hroom)) := by
  subst hn
  exact poolValue_eq_sum_weight hroom

theorem poolValue_reorder (hn : m.outcomes = n) : (m.reorder hroom π).poolValue = m.poolValue := by
  have hn' : (m.reorder hroom π).outcomes = n := (reorder_outcomes hroom π).trans hn
  rw [poolValue_eq_sum_expValue hroom hn', poolValue_eq_sum_expValue hroom hn, ← Equiv.sum_comp π]
  simp only [ratio_reorder]

/-- The pool is the same in any order, and so is the outcome of its check. -/
theorem pool_reorder (hn : m.outcomes = n) : (m.reorder hroom π).pool = m.pool := by
  rw [pool_eq, poolValue_reorder hroom π hn, pool_eq]

theorem cost_reorder (hn : m.outcomes = n) : (m.reorder hroom π).cost = m.cost := by
  rw [cost, pool_reorder hroom π hn, reorder_outcomes, reorder_scale, cost]

theorem mint_reorder (hn : m.outcomes = n) (i : Fin n) (payment : Int) :
    (m.reorder hroom π).mint ((π i).castLE hroom) payment = m.mint (i.castLE hroom) payment := by
  rw [mint_eq, pool_reorder hroom π hn, ratio_reorder, charge, reorder_scale, mint_eq, charge]

theorem sharesOut_reorder (hn : m.outcomes = n) (i : Fin n) (payment : Int) :
    (m.reorder hroom π).sharesOut (Number.ofInt (π i)) payment =
      m.sharesOut (Number.ofInt i) payment := by
  have hn' : (m.reorder hroom π).outcomes = n := (reorder_outcomes hroom π).trans hn
  rw [sharesOut, outcome_castLE hroom hn', ok_bind, mint_reorder hroom π hn, sharesOut,
    outcome_castLE hroom hn, ok_bind]

/-- A moved outcome has its entries at its new place. -/
theorem reorder_set (i : Fin n) (supply reserve : Int) :
    reorder { m with
        supplies := m.supplies.set (i.castLE hroom) supply (i.castLE hroom).isLt
        reserves := m.reserves.set (i.castLE hroom) reserve (i.castLE hroom).isLt } hroom π =
      { m.reorder hroom π with
        supplies := (m.reorder hroom π).supplies.set ((π i).castLE hroom) supply
          ((π i).castLE hroom).isLt
        reserves := (m.reorder hroom π).reserves.set ((π i).castLE hroom) reserve
          ((π i).castLE hroom).isLt } := by
  simp only [reorder, rearrange_set, relocate_castLE]

/-- A trade of the moved outcome is the trade of the outcome, and leaves the moved market. -/
theorem buy_reorder (hn : m.outcomes = n) (i : Fin n) (payment : Int) :
    (m.reorder hroom π).buy (Number.ofInt (π i)) payment =
      (m.buy (Number.ofInt i) payment).map id fun after => after.reorder hroom π := by
  have hn' : (m.reorder hroom π).outcomes = n := (reorder_outcomes hroom π).trans hn
  have hsupply : (m.reorder hroom π).supplies[(π i).castLE hroom] =
      m.supplies[i.castLE hroom] := supply_reorder hroom π i
  have hreserve : (m.reorder hroom π).reserves[(π i).castLE hroom] =
      m.reserves[i.castLE hroom] := reserve_reorder hroom π i
  rw [buy, buy, outcome_castLE hroom hn, outcome_castLE hroom hn']
  simp only [mint_reorder hroom π hn, hsupply, hreserve]
  cases m.mint (i.castLE hroom) payment with
  | error e => rfl
  | ok shares =>
    simp only
    cases Width.u64.add m.supplies[i.castLE hroom] shares with
    | error e => rfl
    | ok supply =>
      simp only
      cases Width.u64.add m.reserves[i.castLE hroom] payment with
      | error e => rfl
      | ok reserve =>
        exact congrArg (Prod.mk (Except.ok shares)) (reorder_set hroom π i supply reserve).symm

/-- The step of a run: an order for the moved outcome does to the moved market what the order
does to the market. -/
theorem execute_reorder (hn : m.outcomes = n) (i : Fin n) (payment : Int) :
    (m.reorder hroom π).execute ⟨Number.ofInt (π i), payment⟩ =
      (m.execute ⟨Number.ofInt i, payment⟩).reorder hroom π := by
  rw [execute, buy_reorder hroom π hn, execute]
  rfl

/-- Orders for the moved outcomes lead to the moved market. -/
theorem executeAll_reorder (hn : m.outcomes = n) (trades : List (Fin n × Int)) :
    (m.reorder hroom π).executeAll (ordersFor (trades.map (Prod.map π id))) =
      (m.executeAll (ordersFor trades)).reorder hroom π := by
  induction trades generalizing m with
  | nil => rfl
  | cons trade trades ih =>
    obtain ⟨i, payment⟩ := trade
    have hn' : (m.execute ⟨Number.ofInt i, payment⟩).outcomes = n :=
      (executeAll_outcomes_scale m [_]).1.trans hn
    rw [List.map_cons, ordersFor_cons, executeAll_cons, ordersFor_cons, executeAll_cons, ← ih hn']
    exact congrArg (executeAll · _) (execute_reorder hroom π hn i payment)

end Reorder

/-! ## Prices -/

/-- The definition of the prices, over the outcomes of a market that has `n` of them. -/
theorem prices_eq_pricesOf {m : Market} {n : Nat} (hroom : n ≤ maxOutcomes) (hn : m.outcomes = n)
    (hscale : 0 < m.scale) :
    m.prices = m.pool >>= pricesOf fun i : Fin n => expValue (m.ratio (i.castLE hroom)) := by
  subst hn
  exact prices_eq_bind hroom hscale

/-- Weights in another order make prices just where the weights do.  Each weight has the same
price but for one unit, and the same if all have lost differently by the rounding. -/
theorem pricesOf_reorder {n : Nat} (π : Equiv.Perm (Fin n)) {ws ws' : Fin n → Int}
    (hws : ∀ i, ws' (π i) = ws i) (sum : Int) :
    (∃ err, pricesOf ws sum = .error err ∧ pricesOf ws' sum = .error err) ∨
      ∃ p p' : Fin n → Int, pricesOf ws sum = .ok (List.ofFn p) ∧
        pricesOf ws' sum = .ok (List.ofFn p') ∧ (∀ i, |p' (π i) - p i| ≤ 1) ∧
        (Function.Injective (fun i => Apportionment.remainder one sum (ws i)) →
          ∀ i, p' (π i) = p i) := by
  have hfits : (∀ i, Width.u128.Fits (ws' i * one)) ↔ ∀ i, Width.u128.Fits (ws i * one) := by
    rw [← π.forall_congr_right]
    simp only [hws]
  simp only [pricesOf, hfits]
  split
  · exact Or.inr ⟨fun _ => 0, fun _ => 0, rfl, rfl, by simp, by simp⟩
  · split
    · exact Or.inr ⟨_, _, rfl, rfl, Apportionment.abs_share_reorder_le π one sum hws,
        Apportionment.share_reorder π hws⟩
    · exact Or.inl ⟨_, rfl, rfl⟩

/-- Moving the outcomes of a market moves all that the market says of them, and changes nothing
else.  Only prices may differ, by the unit that goes to the earlier of two outcomes that have
lost as much by the rounding. -/
theorem no_outcome_is_privileged {m : Market} (hroom : m.outcomes ≤ maxOutcomes)
    (hscale : 0 < m.scale) (π : Equiv.Perm (Fin m.outcomes)) :
    (∀ i : Fin m.outcomes,
      (m.reorder hroom π).supplies.get ((π i).castLE hroom) = m.supplies.get (i.castLE hroom) ∧
      (m.reorder hroom π).reserves.get ((π i).castLE hroom) = m.reserves.get (i.castLE hroom)) ∧
    (m.reorder hroom π).cost = m.cost ∧
    (∀ (i : Fin m.outcomes) (a : Int),
      (m.reorder hroom π).sharesOut (Number.ofInt (π i)) a = m.sharesOut (Number.ofInt i) a ∧
      (m.reorder hroom π).buy (Number.ofInt (π i)) a =
        (m.buy (Number.ofInt i) a).map id fun after => after.reorder hroom π) ∧
    (∀ trades : List (Fin m.outcomes × Int),
      (m.reorder hroom π).executeAll (ordersFor (trades.map (Prod.map π id))) =
        (m.executeAll (ordersFor trades)).reorder hroom π ∧
      ∀ (i : Fin m.outcomes) (a : Int),
        ((m.executeAll (ordersFor trades)).reorder hroom π).buy (Number.ofInt (π i)) a =
          ((m.executeAll (ordersFor trades)).buy (Number.ofInt i) a).map id
            fun after => after.reorder hroom π) ∧
    ∃ e : Fin m.outcomes → Int,
      (∀ i, exp ((m.supplies.get (i.castLE hroom)).tdiv m.scale) = .ok (e i)) ∧
      ((∃ err, m.prices = .error err ∧ (m.reorder hroom π).prices = .error err) ∨
        ∃ p p' : Fin m.outcomes → Int, m.prices = .ok (List.ofFn p) ∧
          (m.reorder hroom π).prices = .ok (List.ofFn p') ∧ (∀ i, |p' (π i) - p i| ≤ 1) ∧
          (Function.Injective (fun i => e i * one % ∑ k, e k) → ∀ i, p' (π i) = p i)) := by
  refine ⟨fun i => ⟨supply_reorder hroom π i, reserve_reorder hroom π i⟩,
    cost_reorder hroom π rfl, fun i a => ⟨?_, buy_reorder hroom π rfl i a⟩,
    fun trades => ⟨executeAll_reorder hroom π rfl trades, fun i a => ?_⟩,
    fun i => expValue (m.ratio (i.castLE hroom)), fun i => exp_eq_ok _, ?_⟩
  · exact sharesOut_reorder hroom π rfl i a
  · exact buy_reorder hroom π (executeAll_outcomes_scale m _).1 i a
  · rw [prices_eq_pricesOf hroom (reorder_outcomes hroom π) (by rwa [reorder_scale]),
      pool_reorder hroom π rfl, prices_eq_pricesOf hroom rfl hscale, pool_eq,
      ← poolValue_eq_sum_expValue hroom rfl]
    cases hpool : Width.u128.confine m.poolValue with
    | error err => exact Or.inl ⟨err, rfl, rfl⟩
    | ok sum =>
      obtain ⟨-, rfl⟩ := Width.confine_eq_ok_iff.mp hpool
      exact pricesOf_reorder π (fun i => congrArg expValue (ratio_reorder hroom π i)) m.poolValue

/-- The first and the last outcome of `overdrawn`, exchanged. -/
def endsExchanged : Equiv.Perm (Fin overdrawn.outcomes) := Equiv.swap (0 : Fin 3) (2 : Fin 3)

/-- `overdrawn` with its negative supply at the end. -/
def overdrawnAtLast : Market := overdrawn.reorder (by decide) endsExchanged

/-- The last outcome then stands before the second one, which is alike, and takes the spare unit
from it. -/
theorem no_outcome_is_privileged_overdrawn :
    overdrawnAtLast.cost = .ok 5 ∧ overdrawnAtLast.sharesOut 2 3 = .ok 16563227387 ∧
      ∃ p p' : Fin 3 → Int,
        [55409297, 472295352, 472295351] = List.ofFn p ∧
        overdrawnAtLast.prices = .ok [472295352, 472295351, 55409297] ∧
        [472295352, 472295351, 55409297] = List.ofFn p' ∧
        ∀ i, |p' (endsExchanged i) - p i| ≤ 1 := by
  have hcost : overdrawn.cost = .ok 5 := by decide +kernel
  have hshares : overdrawn.sharesOut 0 3 = .ok 16563227387 := by decide +kernel
  have hprices : overdrawn.prices = .ok [55409297, 472295352, 472295351] := by decide +kernel
  have hprices' : overdrawnAtLast.prices = .ok [472295352, 472295351, 55409297] := by
    decide +kernel
  obtain ⟨-, hcosts, htrades, -, e, -, hanswers⟩ :=
    no_outcome_is_privileged (m := overdrawn) (by decide) (by decide) endsExchanged
  refine ⟨hcosts.trans hcost, (htrades (0 : Fin 3) 3).1.trans hshares, ?_⟩
  rcases hanswers with ⟨err, herr, -⟩ | ⟨p, p', hp, hp', hunit, -⟩
  · exact absurd (herr.symm.trans hprices) (by simp)
  · exact ⟨p, p', Except.ok.inj (hprices.symm.trans hp), hprices',
      Except.ok.inj (hprices'.symm.trans hp'), hunit⟩

end PredictionMarket.Market
