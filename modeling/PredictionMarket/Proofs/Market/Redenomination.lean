import Mathlib
import PredictionMarket.Proofs.Market.Admission

/-!
# Other units of account

A market may count its settlement asset in a unit that is smaller by some whole factor.  Its
scale, its supplies and the payments for it are then greater by that factor, and nothing else
happens: prices stay, and shares grow by the factor.

A market reads its supplies and its payments in units of the scale only, where the factor is
lost again (`Redenominated.ratios_eq`, `Redenominated.charge_eq`).  So all that a mint computes
up to its logarithm is the same for both markets (`Redenominated.mint_eq`).  The factor comes in
again with the last product, which is where a width can be exceeded on one side only
(`sharesOf_mul`).

None of this asks for markets that trading can reach.
-/

namespace PredictionMarket.Market

open FixedPoint

/-- The market `after` is the market `m` in a unit that is smaller by the factor `k`. -/
structure Redenominated (k : Int) (m after : Market) : Prop where
  /-- The outcomes are the same. -/
  outcomes_eq : after.outcomes = m.outcomes
  /-- The scale is greater by the factor. -/
  scale_eq : after.scale = k * m.scale
  /-- So is every supply. -/
  supply_eq : ∀ j : Fin maxOutcomes, j < m.outcomes →
    after.supplies.get j = k * m.supplies.get j

/-- A market in a unit that is smaller by the factor `k`, its reserves aside. -/
def redenominate (k : Int) (m : Market) : Market :=
  { m with
    scale := k * m.scale
    supplies := m.supplies.map fun s => k * s }

theorem redenominated_redenominate (k : Int) (m : Market) :
    Redenominated k m (m.redenominate k) :=
  ⟨rfl, rfl, fun j _ => by rw [redenominate, Vector.get_map]⟩

/-! ## The two markets -/

/-- What a rounding takes from a quotient is less than one, and `k` times as much is less than
`k`. -/
theorem mul_tdiv_bounds {k x d : Int} (hk : 1 ≤ k) (hd : 0 < d) (h : 0 ≤ x.tdiv d)
    (h' : 0 ≤ (k * x).tdiv d) :
    k * x.tdiv d ≤ (k * x).tdiv d ∧ (k * x).tdiv d < k * (x.tdiv d + 1) := by
  rcases le_or_gt 0 x with hx | hx
  · have hkx : 0 ≤ k * x := mul_nonneg (by omega) hx
    rw [Int.tdiv_eq_ediv_of_nonneg hx, Int.tdiv_eq_ediv_of_nonneg hkx]
    constructor
    · rw [Int.le_ediv_iff_mul_le hd, mul_assoc]
      exact Int.mul_le_mul_of_nonneg_left (Int.ediv_mul_le x (ne_of_gt hd)) (by omega)
    · rw [Int.ediv_lt_iff_lt_mul hd, mul_assoc]
      exact Int.mul_lt_mul_of_pos_left (Int.lt_ediv_add_one_mul_self x hd) (by omega)
  · -- what is below zero leaves nothing but zero on both sides
    have hzero : ∀ y : Int, y < 0 → 0 ≤ y.tdiv d → y.tdiv d = 0 := by
      intro y hy hquot
      have hneg := Int.tdiv_nonneg (a := -y) (b := d) (by omega) hd.le
      rw [Int.neg_tdiv] at hneg
      omega
    rw [hzero x hx h, hzero (k * x) (mul_neg_of_pos_of_neg (by omega) hx) h']
    omega

namespace Redenominated

variable {k : Int} {m after : Market}

theorem scale_pos (h : Redenominated k m after) (hk : 1 ≤ k) (hscale : 0 < m.scale) :
    0 < after.scale := by
  rw [h.scale_eq]
  exact mul_pos hk hscale

theorem outcomes_le (h : Redenominated k m after) (hroom : m.outcomes ≤ maxOutcomes) :
    after.outcomes ≤ maxOutcomes := by
  rw [h.outcomes_eq]
  exact hroom

theorem ratio_eq (h : Redenominated k m after) (hk : 1 ≤ k) {j : Fin maxOutcomes}
    (hj : j < m.outcomes) : after.ratio j = m.ratio j := by
  rw [ratio, h.supply_eq j hj, h.scale_eq, Int.mul_tdiv_mul_of_pos _ _ hk, ratio]

/-- Both markets have the same ratios. -/
theorem ratios_eq (h : Redenominated k m after) (hk : 1 ≤ k) (hroom : m.outcomes ≤ maxOutcomes) :
    after.ratios = m.ratios := by
  have hlength : after.ratios.length = m.ratios.length := by
    rw [length_ratios (h.outcomes_le hroom), length_ratios hroom, h.outcomes_eq]
  apply List.ext_getElem?
  intro i
  rcases lt_or_ge i m.outcomes with hi | hi
  · have hin : i < after.outcomes := by rwa [h.outcomes_eq]
    have hratio := h.ratio_eq hk (j := ⟨i, by omega⟩) hi
    rw [m.getElem?_ratios (j := ⟨i, by omega⟩) hi, after.getElem?_ratios (j := ⟨i, by omega⟩) hin,
      hratio]
  · rw [List.getElem?_eq_none (by rw [hlength, length_ratios hroom]; exact hi),
      List.getElem?_eq_none (by rw [length_ratios hroom]; exact hi)]

/-- The charge of a payment in the smaller unit is that of the payment. -/
theorem charge_eq (h : Redenominated k m after) (hk : 1 ≤ k) (payment : Int) :
    after.charge (k * payment) = m.charge payment := by
  rw [charge, h.scale_eq, mul_assoc, Int.mul_tdiv_mul_of_pos _ _ hk, charge]

theorem poolValue_eq (h : Redenominated k m after) (hk : 1 ≤ k)
    (hroom : m.outcomes ≤ maxOutcomes) : after.poolValue = m.poolValue := by
  rw [poolValue, h.ratios_eq hk hroom, poolValue]

/-- Both markets have the same prices. -/
theorem prices_eq (h : Redenominated k m after) (hk : 1 ≤ k) (hroom : m.outcomes ≤ maxOutcomes)
    (hscale : 0 < m.scale) : after.prices = m.prices := by
  rw [Market.prices_eq (h.outcomes_le hroom) (h.scale_pos hk hscale), h.ratios_eq hk hroom,
    Market.prices_eq hroom hscale]

/-- A mint in the smaller unit has the logarithm of the mint. -/
theorem mint_eq (h : Redenominated k m after) (hk : 1 ≤ k) (hroom : m.outcomes ≤ maxOutcomes)
    (hscale : 0 < m.scale) {j : Fin maxOutcomes} (hj : j < m.outcomes) {payment : Int}
    (h0 : 1 ≤ payment) (hle : k * payment ≤ Width.u64.greatest) :
    after.mint j (k * payment) =
      mintedLn m.pool (m.ratio j) (m.charge payment) >>= sharesOf (k * m.scale) := by
  rw [mint_of_pos (h.scale_pos hk hscale) j (mul_pos hk h0) hle, pool_eq, h.poolValue_eq hk hroom,
    ← pool_eq, h.ratio_eq hk hj, h.charge_eq hk, h.scale_eq]

end Redenominated

/-- Shares in the smaller unit are more by the factor, where they fit. -/
theorem sharesOf_mul {k scale l : Int} (hk : 1 ≤ k) (hscale : 0 < scale) (hl : 0 < l) :
    (∀ s, sharesOf scale l = .ok s →
      sharesOf (k * scale) l =
        if k * s ≤ Width.u64.greatest then .ok (k * s) else .error .mathOverflow) ∧
    ∀ e, sharesOf scale l = .error e → sharesOf (k * scale) l = .error e := by
  rw [sharesOf_eq hscale hl, sharesOf_eq (mul_pos hk hscale) hl, mul_assoc]
  constructor
  · intro s hs
    split at hs
    · exact absurd hs (by simp)
    · obtain rfl := Except.ok.inj hs
      split
      · rw [if_neg (by omega)]
      · rw [if_pos (by omega)]
  · intro e he
    split at he
    · rename_i hbig
      have hmore : scale * l ≤ k * (scale * l) :=
        le_mul_of_one_le_left (mul_pos hscale hl).le hk
      rw [if_pos (by omega)]
      exact he
    · exact absurd he (by simp)

/-- In a smaller unit a market has the same prices.  A payment buys more shares by the factor
and is refused for the same cause, except that the shares may be too many for 64 bits.  Costs
that both markets tell are the same but for the rounding. -/
theorem redenomination_changes_nothing {k : Int} (hk : 1 ≤ k) {m after : Market}
    (h : Redenominated k m after) (hroom : m.outcomes ≤ maxOutcomes) (hscale : 0 < m.scale) :
    after.prices = m.prices ∧
    (∀ (i : Fin m.outcomes) (a : Int), 1 ≤ a → k * a ≤ Width.u64.greatest →
      (∀ s, m.sharesOut (Number.ofInt i) a = .ok s →
        after.sharesOut (Number.ofInt i) (k * a) =
          if k * s ≤ Width.u64.greatest then .ok (k * s) else .error .mathOverflow) ∧
      ∀ e, m.sharesOut (Number.ofInt i) a = .error e →
        after.sharesOut (Number.ofInt i) (k * a) = .error e) ∧
    ∀ c c', m.cost = .ok c → after.cost = .ok c' → k * c ≤ c' ∧ c' < k * (c + 1) := by
  refine ⟨h.prices_eq hk hroom hscale, ?_, ?_⟩
  · intro i a h0 hle
    have hi : ((i.castLE hroom : Fin maxOutcomes) : Nat) < m.outcomes := i.isLt
    have hpayment : a ≤ Width.u64.greatest := (le_mul_of_one_le_left (by omega) hk).trans hle
    have hafter := sharesOut_eq_mint (h.outcomes_le hroom) (i.cast h.outcomes_eq.symm) (k * a)
    rw [Fin.val_cast] at hafter
    rw [hafter, sharesOut_eq_mint hroom]
    show (∀ s, m.mint (i.castLE hroom) a = .ok s → after.mint (i.castLE hroom) (k * a) = _) ∧
      ∀ e, m.mint (i.castLE hroom) a = .error e → after.mint (i.castLE hroom) (k * a) = _
    rw [h.mint_eq hk hroom hscale hi h0 hle, mint_of_pos hscale _ h0 hpayment]
    cases hl : mintedLn m.pool (m.ratio (i.castLE hroom)) (m.charge a) with
    | error e => simp
    | ok l => exact sharesOf_mul hk hscale (pos_of_mintedLn hl)
  · intro c c' hc hc'
    obtain ⟨-, l, hl, hnonneg, rfl⟩ := cost_eq_ok hroom hscale hc
    obtain ⟨-, l', hl', hnonneg', rfl⟩ :=
      cost_eq_ok (h.outcomes_le hroom) (h.scale_pos hk hscale) hc'
    rw [h.poolValue_eq hk hroom] at hl'
    obtain rfl := Except.ok.inj (hl.symm.trans hl')
    rw [h.scale_eq, mul_assoc] at hnonneg' ⊢
    exact mul_tdiv_bounds hk FixedPoint.one_pos hnonneg hnonneg'

/-- `overdrawn` with its settlement asset counted in billionths. -/
def overdrawnInBillionths : Market := overdrawn.redenominate 1000000000

/-- The shares that three units buy are still below the limit in billionths, those of four units
are above it, and two units are too little for the second outcome in either unit. -/
theorem redenomination_changes_nothing_overdrawn :
    Redenominated 1000000000 overdrawn overdrawnInBillionths ∧
      overdrawnInBillionths.prices = overdrawn.prices ∧
      overdrawn.sharesOut 0 3 = .ok 16563227387 ∧
      overdrawnInBillionths.sharesOut 0 3000000000 = .ok 16563227387000000000 ∧
      overdrawn.sharesOut 0 4 = .ok 18914662375 ∧
      overdrawnInBillionths.sharesOut 0 4000000000 = .error .mathOverflow ∧
      overdrawn.sharesOut 1 2 = .error .depositIsZero ∧
      overdrawnInBillionths.sharesOut 1 2000000000 = .error .depositIsZero ∧
      overdrawn.cost = .ok 5 ∧ overdrawnInBillionths.cost = .ok 5251055208 ∧
      (1000000000 * 5 : Int) ≤ 5251055208 ∧ (5251055208 : Int) < 1000000000 * (5 + 1) := by
  have hredenominated : Redenominated 1000000000 overdrawn overdrawnInBillionths :=
    redenominated_redenominate _ _
  obtain ⟨hprices, hshares, hcosts⟩ :=
    redenomination_changes_nothing (by decide) hredenominated (by decide) (by decide)
  have hthree : overdrawn.sharesOut 0 3 = .ok 16563227387 := by decide +kernel
  have hfour : overdrawn.sharesOut 0 4 = .ok 18914662375 := by decide +kernel
  have htwo : overdrawn.sharesOut 1 2 = .error .depositIsZero := by decide +kernel
  have hcost : overdrawn.cost = .ok 5 := by decide +kernel
  have hcost' : overdrawnInBillionths.cost = .ok 5251055208 := by decide +kernel
  have hbuys {a : Int} := hshares (0 : Fin 3) a
  refine ⟨hredenominated, hprices, hthree, (hbuys (by decide) (by decide)).1 _ hthree, hfour,
    (hbuys (by decide) (by decide)).1 _ hfour, htwo,
    (hshares (1 : Fin 3) 2 (by decide) (by decide)).2 _ htwo, hcost, hcost', ?_⟩
  exact hcosts 5 5251055208 hcost hcost'

end PredictionMarket.Market
