import Mathlib
import PredictionMarket.Proofs.FixedPoint.LnOrder
import PredictionMarket.Proofs.Market.Admission

/-!
# The order of payments

A larger payment never buys less.  The answers to payments for an outcome are in order: too
small, then shares that do not go down, then too large.  `NoMore` is that order, and
`Sound.noMore_mint` says that a mint keeps it.

The logarithm is the only step of a mint that need not keep an order, as its errors can
outweigh a small growth of its argument.  Payments of one charge have one argument.  Between
payments of different charges the argument grows by one part in `7 * 10 ^ 9` at least
(`Sound.argument_le_mul_sub`), which is far more than the errors.
-/

namespace PredictionMarket.Market

open FixedPoint

/-! ## The argument of the logarithm -/

theorem Sound.charge_mono {m : Market} (h : m.Sound) : Monotone m.charge := by
  intro a b hab
  apply Int.tdiv_le_tdiv h.scale_pos
  exact Int.mul_le_mul_of_nonneg_right hab FixedPoint.one_pos.le

theorem Sound.gain_mono {m : Market} (h : m.Sound) : Monotone m.gain := by
  intro a b hab
  have hgrown := expValue_mono (h.charge_mono hab)
  have hpool := h.one_le_poolValue
  have hpos := FixedPoint.one_pos
  exact Int.mul_le_mul_of_nonneg_left (by omega) (by omega)

/-- A payment of a larger charge adds at least the exponential of the outcome to the gain, and
one part in `3 * 10 ^ 9`. -/
theorem Sound.gain_growth {m : Market} (h : m.Sound) {j : Fin maxOutcomes}
    (hj : j < m.outcomes) {a b : Int} (h0 : 0 ≤ a) (hlt : m.charge a < m.charge b)
    (hlimit : m.charge b ≤ expLimit) :
    expValue (m.ratio j) ≤ m.gain b - m.gain a ∧
      m.gain a ≤ 3 * one * (m.gain b - m.gain a) := by
  have hcharge := h.charge_nonneg h0
  have hone := FixedPoint.one_pos
  have hown := expValue_pos (h.own_nonneg hj)
  have hpool := h.expValue_add_one_le (m.ratio_mem hj)
  have hsplit : m.gain b - m.gain a =
      m.poolValue * (expValue (m.charge b) - expValue (m.charge a)) := by
    unfold gain
    ring
  have hgrown : 1 ≤ expValue (m.charge b) - expValue (m.charge a) := by
    have hstrict := strictMonoOn_expValue ⟨hcharge, hlt.le.trans hlimit⟩
      ⟨hcharge.trans hlt.le, hlimit⟩ hlt
    omega
  rw [hsplit]
  constructor
  · have hmul := Int.mul_le_mul_of_nonneg_left hgrown (by omega : 0 ≤ m.poolValue)
    rw [mul_one] at hmul
    omega
  · calc m.gain a ≤ m.poolValue * expValue (m.charge a) :=
          Int.mul_le_mul_of_nonneg_left (by omega) (by omega)
      _ ≤ m.poolValue * (3 * one * (expValue (m.charge b) - expValue (m.charge a))) :=
          Int.mul_le_mul_of_nonneg_left (expValue_le_mul_sub hcharge hlt hlimit) (by omega)
      _ = 3 * one * (m.poolValue * (expValue (m.charge b) - expValue (m.charge a))) := by ring

/-- A quotient keeps half of the relative growth of its dividend, if the dividend grows by the
divisor at least. -/
theorem ediv_le_mul_sub {x y d c : Int} (hd : 0 < d) (hc : 0 ≤ c) (hgrown : d ≤ y - x)
    (hpart : x ≤ c * (y - x)) : 1 ≤ y / d - x / d ∧ x / d ≤ 2 * c * (y / d - x / d) := by
  have hsum : x / d + (y - x) / d ≤ y / d := by
    have hadd := Int.ediv_add_ediv_le_add_ediv (x := x) (y := y - x) hd
    rwa [add_sub_cancel] at hadd
  have hquot : 1 ≤ (y - x) / d := by
    rw [Int.le_ediv_iff_mul_le hd]
    omega
  have hround : y - x < ((y - x) / d + 1) * d := Int.lt_ediv_add_one_mul_self _ hd
  have hhalf : x / d ≤ 2 * c * ((y - x) / d) := by
    apply Int.ediv_le_of_le_mul hd
    calc x ≤ c * (y - x) := hpart
      _ ≤ c * ((2 * ((y - x) / d)) * d) := by
          apply Int.mul_le_mul_of_nonneg_left _ hc
          apply hround.le.trans
          exact Int.mul_le_mul_of_nonneg_right (by omega) hd.le
      _ = 2 * c * ((y - x) / d) * d := by ring
  refine ⟨by omega, hhalf.trans ?_⟩
  exact Int.mul_le_mul_of_nonneg_left (by omega) (by omega)

/-- A payment of a larger charge raises the argument of the logarithm by one part in
`7 * 10 ^ 9` at least. -/
theorem Sound.argument_le_mul_sub {m : Market} (h : m.Sound) {j : Fin maxOutcomes}
    (hj : j < m.outcomes) {a b : Int} (h0 : 0 ≤ a) (hlt : m.charge a < m.charge b)
    (hlimit : m.charge b ≤ expLimit) :
    m.argument j a ≤ 7 * one * (m.argument j b - m.argument j a) := by
  have hown := expValue_pos (h.own_nonneg hj)
  have hga := h.gain_nonneg h0
  obtain ⟨hgrown, hpart⟩ := h.gain_growth hj h0 hlt hlimit
  obtain ⟨hdiff, hquot⟩ := ediv_le_mul_sub hown (by decide) hgrown hpart
  rw [argument, argument, Int.tdiv_eq_ediv_of_nonneg hga, Int.tdiv_eq_ediv_of_nonneg (by omega)]
  simp only [one] at hquot ⊢
  omega

/-- The logarithm does not go down with a larger payment. -/
theorem Sound.ln_argument_mono {m : Market} (h : m.Sound) (hlive : m.Live)
    {j : Fin maxOutcomes} (hj : j < m.outcomes) {a b l k : Int} (h0 : 0 ≤ a) (hab : a ≤ b)
    (hlimit : m.charge b ≤ expLimit) (hown : expValue (m.ratio j) * one ≤ m.gain a)
    (hl : ln (m.argument j a) = .ok l) (hk : ln (m.argument j b) = .ok k) : l ≤ k := by
  rcases (h.charge_mono hab).eq_or_lt with heq | hlt
  · have hsame : m.argument j a = m.argument j b := by rw [argument, argument, gain, gain, heq]
    rw [hsame, hk] at hl
    exact (Except.ok.inj hl).ge
  · have hlow := h.le_argument hj h0 hown
    have hgrowth := h.argument_le_mul_sub hj h0 hlt hlimit
    refine ln_le_ln_of_growth (le_trans (by decide) hlow)
      (h.argument_le hlive hj (h0.trans hab) hlimit) hl hk ?_
    simp only [one] at hlow hgrowth
    omega

/-! ## The answers -/

/-- The answer `x` is not above the answer `y`: what is too small is below all shares, and
what is too large above them. -/
structure NoMore (x y : Except MarketError Int) : Prop where
  /-- Of shares there are not more. -/
  shares_le : ∀ s t, x = .ok s → y = .ok t → s ≤ t
  /-- Nothing is below what is too small. -/
  too_small : y = .error .depositIsZero → x = .error .depositIsZero
  /-- Nothing is above what is too large. -/
  too_large : x = .error .mathOverflow → y = .error .mathOverflow

theorem noMore_of_too_small (y : Except MarketError Int) : NoMore (.error .depositIsZero) y where
  shares_le s t hs _ := by simp at hs
  too_small _ := rfl
  too_large hx := by simp at hx

theorem noMore_of_too_large (x : Except MarketError Int) : NoMore x (.error .mathOverflow) where
  shares_le s t _ ht := by simp at ht
  too_small hy := by simp at hy
  too_large _ := rfl

/-- Shares that are too large or taken as they are. -/
theorem noMore_of_le {s t limit : Int} (hle : s ≤ t) :
    NoMore (if limit < s then .error .mathOverflow else .ok s)
      (if limit < t then .error .mathOverflow else .ok t) where
  shares_le u v hu hv := by
    split at hu <;> split at hv <;> simp_all
  too_small hy := by
    split at hy <;> simp at hy
  too_large hx := by
    split at hx
    · rw [if_pos (by omega)]
    · simp at hx

/-- A mint keeps the order of the payments. -/
theorem Sound.noMore_mint {m : Market} (h : m.Sound) {j : Fin maxOutcomes}
    (hj : j < m.outcomes) {a b : Int} (hab : a ≤ b) : NoMore (m.mint j a) (m.mint j b) := by
  rcases le_or_gt a 0 with hneg | h0
  · rw [mint_of_nonpos hneg]
    exact noMore_of_too_small _
  rcases lt_or_ge Width.u64.greatest b with hbig | hle
  · rw [mint_of_greatest_lt hbig]
    exact noMore_of_too_large _
  by_cases hlive : m.Live
  swap
  · rw [h.mint_of_not_live hlive j (h0.trans_le hab)]
    exact noMore_of_too_large _
  rcases lt_or_ge expLimit (m.charge b) with hlimit | hcharge
  · rw [h.mint_of_limit_lt hlive (h0.trans_le hab) hle hlimit]
    exact noMore_of_too_large _
  have hcharge' := (h.charge_mono hab).trans hcharge
  rcases lt_or_ge (m.gain a) (expValue (m.ratio j) * one) with hsmall | hown
  · rw [h.mint_of_gain_lt hlive hj h0 (hab.trans hle) hcharge' hsmall]
    exact noMore_of_too_small _
  -- both payments are within the limit and large enough
  obtain ⟨l, hl, -, ha⟩ := h.mint_of_own_le hlive hj h0 (hab.trans hle) hcharge' hown
  obtain ⟨k, hk, -, hb⟩ :=
    h.mint_of_own_le hlive hj (h0.trans_le hab) hle hcharge (hown.trans (h.gain_mono hab))
  rw [ha, hb]
  have hlk := h.ln_argument_mono hlive hj h0.le hab hcharge hown hl hk
  exact noMore_of_le (Int.mul_le_mul_of_nonneg_left hlk h.scale_pos.le)

/-- A larger payment for an outcome never buys less.  Every payment is too small, buys some
shares, or is too large, and the payments of each kind stand together in this order. -/
theorem sharesOut_keeps_order {m : Market} (h : m.Sound) (i : Fin m.outcomes) :
    (∀ a, m.sharesOut (Number.ofInt i) a = .error .depositIsZero ∨
      m.sharesOut (Number.ofInt i) a = .error .mathOverflow ∨
        ∃ s, m.sharesOut (Number.ofInt i) a = .ok s) ∧
    ∀ a b : Int, a ≤ b →
      (∀ s t, m.sharesOut (Number.ofInt i) a = .ok s → m.sharesOut (Number.ofInt i) b = .ok t →
        s ≤ t) ∧
      (m.sharesOut (Number.ofInt i) b = .error .depositIsZero →
        m.sharesOut (Number.ofInt i) a = .error .depositIsZero) ∧
      (m.sharesOut (Number.ofInt i) a = .error .mathOverflow →
        m.sharesOut (Number.ofInt i) b = .error .mathOverflow) := by
  have hi : ((i.castLE h.outcomes_le : Fin maxOutcomes) : Nat) < m.outcomes := i.isLt
  simp only [sharesOut_eq_mint h.outcomes_le]
  constructor
  · intro a
    rcases h.mint_cases hi a with hsmall | hlarge | ⟨s, hs, -⟩
    · exact .inl hsmall
    · exact .inr (.inl hlarge)
    · exact .inr (.inr ⟨s, hs⟩)
  · intro a b hab
    have hmore := h.noMore_mint hi hab
    exact ⟨hmore.shares_le, hmore.too_small, hmore.too_large⟩

/-- Payments of three and four units for the first outcome of `brimful`, and what they say of
smaller and larger ones. -/
theorem sharesOut_keeps_order_brimful :
    brimful.Sound ∧ brimful.sharesOut 0 2 = .error .depositIsZero ∧
      brimful.sharesOut 0 3 = .ok 755044018400000000 ∧
      brimful.sharesOut 0 4 = .ok 861939823500000000 ∧
      brimful.sharesOut 0 14000000000 = .error .mathOverflow ∧
      (755044018400000000 : Int) ≤ 861939823500000000 ∧
      (∀ a ≤ 2, brimful.sharesOut 0 a = .error .depositIsZero) ∧
      ∀ a ≥ 14000000000, brimful.sharesOut 0 a = .error .mathOverflow := by
  have hsound : brimful.Sound := by decide +kernel
  have hsmall : brimful.sharesOut 0 2 = .error .depositIsZero := by decide +kernel
  have hthree : brimful.sharesOut 0 3 = .ok 755044018400000000 := by decide +kernel
  have hfour : brimful.sharesOut 0 4 = .ok 861939823500000000 := by decide +kernel
  have hlarge : brimful.sharesOut 0 14000000000 = .error .mathOverflow := by decide +kernel
  obtain ⟨-, horder⟩ := sharesOut_keeps_order hsound (0 : Fin 3)
  obtain ⟨hshares, -, -⟩ := horder 3 4 (by decide)
  refine ⟨hsound, hsmall, hthree, hfour, hlarge, hshares _ _ hthree hfour, ?_, ?_⟩
  · intro a ha
    exact (horder a 2 ha).2.1 hsmall
  · intro a ha
    exact (horder 14000000000 a ha).2.2 hlarge

end PredictionMarket.Market
