import Mathlib
import PredictionMarket.Proofs.Market.Admission

/-!
# What a payment is worth

A share pays one unit at most, so nobody should have to pay more than one for it.  The exact
rule never asks for more: the pool is at least the exponential of the outcome, so the number
whose logarithm is minted is at least the exponential of the payment.

`Sound.expValue_charge_le_argument` says that the rounded numbers keep this relation, as the
quotient is of an integer.  What is lost after that is up to two units in the logarithm and one
in the charge, which makes the three scales of `payment_le_sharesOut`.
-/

namespace PredictionMarket.Market

open FixedPoint

/-- The number whose logarithm a payment mints is at least the exponential of its charge. -/
theorem Sound.expValue_charge_le_argument {m : Market} (h : m.Sound) {j : Fin maxOutcomes}
    (hj : j < m.outcomes) {payment : Int} (h0 : 0 ≤ payment) :
    expValue (m.charge payment) ≤ m.argument j payment := by
  have hown := expValue_pos (h.own_nonneg hj)
  have hpool := h.expValue_add_one_le (m.ratio_mem hj)
  have hgrown := one_le_expValue (h.charge_nonneg h0)
  have hpos := FixedPoint.one_pos
  have hquot : expValue (m.charge payment) - one ≤
      (m.gain payment).tdiv (expValue (m.ratio j)) := by
    rw [le_tdiv_iff (h.gain_nonneg h0) hown, gain]
    exact Int.mul_le_mul_of_nonneg_right (by omega) (by omega)
  rw [argument]
  omega

/-- The logarithm that a payment mints is below its charge by two units at most. -/
theorem Minted.charge_le_ln {m : Market} {j : Fin maxOutcomes} {payment shares l : Int}
    (hm : m.Minted j payment shares) (h : m.Sound) (hj : j < m.outcomes)
    (hl : ln (m.argument j payment) = .ok l) : m.charge payment ≤ l + 2 := by
  have hle := h.expValue_charge_le_argument hj hm.payment_pos.le
  have hln := sub_two_le_ln (hm.charge_nonneg h) hm.charge_le hle hm.argument_le hl
  omega

/-- A payment buys a share for each of its units, up to three scales: the average price is not
above one but for the rounding of three units. -/
theorem payment_le_sharesOut {m : Market} (h : m.Sound) (i : Fin m.outcomes) {a s : Int}
    (hs : m.sharesOut (Number.ofInt i) a = .ok s) : one * a ≤ s + 3 * m.scale := by
  have hi : ((i.castLE h.outcomes_le : Fin maxOutcomes) : Nat) < m.outcomes := i.isLt
  rw [sharesOut_eq_mint h.outcomes_le] at hs
  have hm := h.minted hi hs
  obtain ⟨l, hl, rfl⟩ := hm.exists_ln
  obtain ⟨-, hcharge⟩ := h.scale_mul_charge hm.payment_pos.le
  have hln := Int.mul_le_mul_of_nonneg_left (hm.charge_le_ln h hi hl) h.scale_pos.le
  calc one * a = a * one := mul_comm _ _
    _ ≤ m.scale * m.charge a + m.scale := hcharge.le
    _ ≤ m.scale * (l + 2) + m.scale := by omega
    _ = m.scale * l + 3 * m.scale := by ring

/-- A market of two outcomes, the second of which is at the limit of the exponential, so that
its price is all but one. -/
def foregone : Market where
  label := Text.ofString "foregone"
  admin := Text.ofString "admin"
  outcomes := 2
  scale := 7
  openedAt := 0
  resolveAt := 3600
  supplies := (Vector.replicate maxOutcomes 0).set 1 140000000000 one_lt_maxOutcomes
  reserves := Vector.replicate maxOutcomes 0

/-- Eight units buy six billionths of a share less than eight shares of it. -/
theorem payment_le_sharesOut_foregone :
    foregone.Sound ∧ foregone.sharesOut 1 8 = .ok 7999999994 ∧
      one * 8 ≤ 7999999994 + 3 * foregone.scale := by
  have hsound : foregone.Sound := by decide +kernel
  have hshares : foregone.sharesOut 1 8 = .ok 7999999994 := by decide +kernel
  exact ⟨hsound, hshares, payment_le_sharesOut hsound (1 : Fin 2) hshares⟩

end PredictionMarket.Market
