import Mathlib
import PredictionMarket.Proofs.Market.CostBounds
import PredictionMarket.Proofs.Market.Prices

/-!
# When a payment is taken

A market whose supplies are within the limit of the exponential answers a payment by three
comparisons, in this order:

* a charge above the limit overflows;
* a gain that does not cover the exponential of the outcome is too small;
* shares that do not fit overflow, and all others are minted.

`sharesOut_decided` states them on the exponentials themselves.  The other checks of a mint
never decide an answer.
-/

namespace PredictionMarket.Market

open FixedPoint

/-- Supplies within the limit keep a market live. -/
theorem Sound.live_of_supplies_le {m : Market} (h : m.Sound)
    (hsupplies : ∀ s ∈ m.activeSupplies, s ≤ expLimit * m.scale) : m.Live := by
  intro x hx
  obtain ⟨s, hs, rfl⟩ := List.mem_map.mp hx
  show s.tdiv m.scale ≤ expLimit
  rw [Int.tdiv_eq_ediv_of_nonneg (h.supplies_nonneg s hs)]
  exact Int.ediv_le_of_le_mul h.scale_pos (hsupplies s hs)

theorem charge_eq (m : Market) {payment : Int} (h0 : 0 ≤ payment) :
    m.charge payment = payment * one / m.scale :=
  Int.tdiv_eq_ediv_of_nonneg (mul_nonneg h0 FixedPoint.one_pos.le)

theorem Sound.ratio_eq {m : Market} (h : m.Sound) {j : Fin maxOutcomes} (hj : j < m.outcomes) :
    m.ratio j = m.supplies.get j / m.scale :=
  Int.tdiv_eq_ediv_of_nonneg (h.supplies_nonneg _ (m.supply_mem hj))

theorem sharesOut_eq_mint {m : Market} (hroom : m.outcomes ≤ maxOutcomes) (i : Fin m.outcomes)
    (payment : Int) : m.sharesOut (Number.ofInt i) payment = m.mint (i.castLE hroom) payment := by
  rw [sharesOut, outcome_castLE hroom rfl, ok_bind]

/-- A payment for an outcome is refused as too large where its charge is above the limit of
the exponential.  Otherwise it is refused as too small just where the sum of the exponentials,
times what the exponential of the charge is above one, does not reach the exponential of the
outcome.  All other payments mint the scale times a logarithm, where that fits. -/
theorem sharesOut_decided {m : Market} (h : m.Sound)
    (hsupplies : ∀ s ∈ m.activeSupplies, s ≤ expLimit * m.scale) (i : Fin m.outcomes)
    {a : Int} (h1 : 1 ≤ a) (ha : a ≤ Width.u64.greatest) :
    ∃ e : Fin m.outcomes → Int,
      (∀ k, exp (m.supplies.get (k.castLE h.outcomes_le) / m.scale) = .ok (e k)) ∧
      (expLimit < a * one / m.scale → m.sharesOut (Number.ofInt i) a = .error .mathOverflow) ∧
      (a * one / m.scale ≤ expLimit →
        ∃ v, exp (a * one / m.scale) = .ok v ∧ 0 ≤ v - one ∧
          (m.sharesOut (Number.ofInt i) a = .error .depositIsZero ↔
            (∑ k, e k) * (v - one) < one * e i) ∧
          (one * e i ≤ (∑ k, e k) * (v - one) →
            ∃ l, ln ((∑ k, e k) * (v - one) / e i + one) = .ok l ∧
              m.sharesOut (Number.ofInt i) a =
                if Width.u64.greatest < m.scale * l then .error .mathOverflow
                else .ok (m.scale * l))) := by
  have hpos : 0 < a := h1
  have hlive := h.live_of_supplies_le hsupplies
  have hi : ((i.castLE h.outcomes_le : Fin maxOutcomes) : Nat) < m.outcomes := i.isLt
  have hgain : m.gain a = (∑ k, m.weight h.outcomes_le k) * (expValue (m.charge a) - one) := by
    rw [gain, poolValue_eq_sum_weight h.outcomes_le]
  rw [sharesOut_eq_mint h.outcomes_le, ← m.charge_eq hpos.le]
  refine ⟨m.weight h.outcomes_le, ?_, ?_, ?_⟩
  · intro k
    rw [← h.ratio_eq (j := k.castLE h.outcomes_le) k.isLt]
    exact exp_eq_ok _
  · intro hcharge
    exact h.mint_of_limit_lt hlive hpos ha hcharge
  · intro hcharge
    have hgrown := one_le_expValue (h.charge_nonneg hpos.le)
    refine ⟨expValue (m.charge a), exp_eq_ok _, by omega, ?_⟩
    rw [← hgain, mul_comm one]
    show (_ ↔ m.gain a < expValue (m.ratio (i.castLE h.outcomes_le)) * one) ∧
      (expValue (m.ratio (i.castLE h.outcomes_le)) * one ≤ m.gain a → _)
    by_cases hown : m.gain a < expValue (m.ratio (i.castLE h.outcomes_le)) * one
    · -- the payment is too small
      have hrefused := h.mint_of_gain_lt hlive hi hpos ha hcharge hown
      exact ⟨iff_of_true hrefused hown, fun hle => absurd hown (not_lt.mpr hle)⟩
    · obtain ⟨l, hl, -, hanswer⟩ := h.mint_of_own_le hlive hi hpos ha hcharge (not_lt.mp hown)
      rw [argument, Int.tdiv_eq_ediv_of_nonneg (h.gain_nonneg hpos.le)] at hl
      refine ⟨iff_of_false ?_ hown, fun _ => ⟨l, hl, hanswer⟩⟩
      rw [hanswer]
      split <;> simp

/-- The exponentials of `brimful`. -/
theorem exponentials_brimful {e : Fin brimful.outcomes → Int}
    (he : ∀ k, exp (brimful.supplies.get (k.castLE (by decide)) / brimful.scale) = .ok (e k)) :
    e (0 : Fin 3) = 1000000000 ∧ ∑ k, e k = 485165196439459720 := by
  have hvalues : ∀ k : Fin 3, exp (brimful.supplies.get (k.castLE (by decide)) / brimful.scale) =
      .ok (![1000000000, 485165194439459720, 1000000000] k) := by
    decide +kernel
  obtain rfl : e = ![1000000000, 485165194439459720, 1000000000] := by
    funext k
    exact Except.ok.inj ((he k).symm.trans (hvalues k))
  decide

/-- Two units for the first outcome of `brimful` are one too few, and a payment of the limit
times the scale is the last one within the limit. -/
theorem sharesOut_decided_brimful :
    brimful.Sound ∧ (∀ s ∈ brimful.activeSupplies, s ≤ expLimit * brimful.scale) ∧
      brimful.sharesOut 0 2 = .error .depositIsZero ∧
      brimful.sharesOut 0 3 = .ok 755044018400000000 ∧
      brimful.sharesOut 0 14000000001 = .error .mathOverflow := by
  have hsound : brimful.Sound := by decide +kernel
  have hsupplies : ∀ s ∈ brimful.activeSupplies, s ≤ expLimit * brimful.scale := by
    decide +kernel
  have hdecided {a : Int} (h1 : 1 ≤ a) (ha : a ≤ Width.u64.greatest) :=
    sharesOut_decided hsound hsupplies (0 : Fin 3) h1 ha
  refine ⟨hsound, hsupplies, ?_, ?_, ?_⟩
  · obtain ⟨e, he, -, hwithin⟩ := hdecided (a := 2) (by decide) (by decide)
    obtain ⟨hown, hsum⟩ := exponentials_brimful he
    obtain ⟨v, hv, -, hsmall, -⟩ := hwithin (by decide)
    have hexp : exp (2 * one / brimful.scale) = .ok 1000000002 := by cbv
    obtain rfl := Except.ok.inj (hexp.symm.trans hv)
    exact hsmall.mpr (by rw [hown, hsum]; decide)
  · obtain ⟨e, he, -, hwithin⟩ := hdecided (a := 3) (by decide) (by decide)
    obtain ⟨hown, hsum⟩ := exponentials_brimful he
    obtain ⟨v, hv, -, -, hlarge⟩ := hwithin (by decide)
    have hexp : exp (3 * one / brimful.scale) = .ok 1000000004 := by cbv
    obtain rfl := Except.ok.inj (hexp.symm.trans hv)
    obtain ⟨l, hl, hanswer⟩ := hlarge (by rw [hown, hsum]; decide)
    rw [hown, hsum] at hl
    have hln : ln (485165196439459720 * (1000000004 - one) / 1000000000 + one) =
      .ok 1078634312 := by cbv
    obtain rfl := Except.ok.inj (hln.symm.trans hl)
    exact hanswer
  · obtain ⟨e, he, hbeyond, -⟩ := hdecided (a := 14000000001) (by decide) (by decide)
    exact hbeyond (by decide)

end PredictionMarket.Market
