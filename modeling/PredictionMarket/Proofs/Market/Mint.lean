import Mathlib.Tactic.Abel
import PredictionMarket.Market.Trade
import PredictionMarket.Proofs.FixedPoint.ExpOrder
import PredictionMarket.Proofs.FixedPoint.LnError
import PredictionMarket.Proofs.Market.Pool

/-!
# What a mint says of its market

`mint_eq` takes a mint apart.  It checks its arguments, computes a logarithm from the
ratios and the charge alone (`mintedLn`), and then the shares from the scale
(`sharesOf`).

On the way there are a dozen checks.  For a sound market only a few of them can
decide the answer, and the section on the answer has one lemma for each: the payment
itself, the life of the market, the limit of the exponential, and a gain that does
not cover the exponential of the outcome.  A payment past all of these mints the
scale times a logarithm, where that fits (`Sound.mint_of_own_le`).

`Minted` lists what is known of the market, the payment and the shares once a mint is
answered.  `Sound.mint_cases` goes through the lemmas in order and ends with it.
Everything else about a trade is derived from `Minted`.

The shares are the scale times a logarithm of at least that of two
(`Minted.le_shares`), so a market that ever trades has a scale of at most eleven
digits (`Minted.scale_le`).

`buy_cases` does the same for `buy`: a refusal that leaves the market as it is, or a
mint, two sums that fit, and the market `credit` after it.
-/

namespace PredictionMarket.Market

open FixedPoint

/-! ## The parts of a mint -/

/-- A payment in units of the scale, with nine places. -/
def charge (m : Market) (payment : Int) : Int := (payment * one).tdiv m.scale

/-- The pool times what the exponential of a payment is above one. -/
def gain (m : Market) (payment : Int) : Int :=
  m.poolValue * (expValue (m.charge payment) - one)

/-- The number whose logarithm a payment mints. -/
def argument (m : Market) (j : Fin maxOutcomes) (payment : Int) : Int :=
  (m.gain payment).tdiv (expValue (m.ratio j)) + one

/-- What is known once a payment has minted shares of an outcome. -/
structure Minted (m : Market) (j : Fin maxOutcomes) (payment shares : Int) : Prop where
  /-- The payment is positive. -/
  payment_pos : 0 < payment
  /-- The payment fits. -/
  payment_le : payment ≤ Width.u64.greatest
  /-- The market can be priced. -/
  live : m.Live
  /-- The payment is within the limit of the exponential. -/
  charge_le : m.charge payment ≤ expLimit
  /-- The payment is large enough. -/
  own_le : expValue (m.ratio j) * one ≤ m.gain payment
  /-- The argument of the logarithm fits. -/
  argument_le : m.argument j payment ≤ Width.u128.greatest
  /-- The shares are the scale times a logarithm. -/
  exists_ln : ∃ l, ln (m.argument j payment) = .ok l ∧ shares = m.scale * l
  /-- The shares are positive. -/
  shares_pos : 0 < shares
  /-- The shares fit. -/
  shares_le : shares ≤ Width.u64.greatest

/-- A payment is its charge times the scale, up to one scale. -/
theorem Sound.scale_mul_charge {m : Market} (h : m.Sound) {payment : Int} (h0 : 0 ≤ payment) :
    m.scale * m.charge payment ≤ payment * one ∧
      payment * one < m.scale * m.charge payment + m.scale := by
  have hnonneg : 0 ≤ payment * one := mul_nonneg h0 (le_of_lt FixedPoint.one_pos)
  rw [charge, Int.tdiv_eq_ediv_of_nonneg hnonneg]
  refine ⟨Int.mul_ediv_self_le (ne_of_gt h.scale_pos), ?_⟩
  have := Int.lt_mul_ediv_self_add (x := payment * one) h.scale_pos
  omega

theorem Sound.charge_nonneg {m : Market} (h : m.Sound) {payment : Int} (h0 : 0 ≤ payment) :
    0 ≤ m.charge payment :=
  Int.tdiv_nonneg (mul_nonneg h0 FixedPoint.one_pos.le) h.scale_pos.le

theorem Sound.gain_nonneg {m : Market} (h : m.Sound) {payment : Int} (h0 : 0 ≤ payment) :
    0 ≤ m.gain payment := by
  have hone := one_le_expValue (h.charge_nonneg h0)
  have htwo := h.two_mul_one_le
  have hpos := FixedPoint.one_pos
  exact mul_nonneg (by omega) (by omega)

/-- A payment above the limit overflows the product of the pool and the gain. -/
theorem Sound.charge_le_of_fits {m : Market} (h : m.Sound) {payment : Int}
    (hfits : Width.u128.Fits (m.gain payment)) : m.charge payment ≤ expLimit := by
  by_contra hlimit
  have htwo := h.two_mul_one_le
  have hgain : m.gain payment = m.poolValue * (Width.u128.greatest - one) := by
    rw [gain, expValue_of_limit_lt (not_le.mp hlimit)]
  have hmul : 2 * one * (Width.u128.greatest - one) ≤
      m.poolValue * (Width.u128.greatest - one) :=
    Int.mul_le_mul_of_nonneg_right htwo (by decide)
  have hbig : Width.u128.greatest < 2 * one * (Width.u128.greatest - one) := by decide
  have := hfits.2
  omega

/-- A payment up to the limit leaves the product of the pool and the gain two digits of
room. -/
theorem Sound.gain_le {m : Market} (h : m.Sound) (hlive : m.Live) {payment : Int}
    (h0 : 0 ≤ payment) (hcharge : m.charge payment ≤ expLimit) :
    m.gain payment ≤ 16 * 1000000000000000000 * 1000000000000000000 := by
  have hcharge0 := h.charge_nonneg h0
  have hone := one_le_expValue hcharge0
  have hgrown := expValue_le_of_le_limit hcharge0 hcharge
  have hpos := FixedPoint.one_pos
  exact Int.mul_le_mul (h.poolValue_le hlive) (by omega) (by omega) (by norm_num)

/-- How often an exponential goes into a gain. -/
theorem le_tdiv_iff {g own k : Int} (hg : 0 ≤ g) (hown : 0 < own) :
    k ≤ g.tdiv own ↔ own * k ≤ g := by
  rw [Int.tdiv_eq_ediv_of_nonneg hg, Int.le_ediv_iff_mul_le hown, mul_comm]

/-- The test for the least payment: of two quotients the second is zero just where the
gain does not cover the exponential. -/
theorem whole_eq_zero_iff {g own : Int} (hg : 0 ≤ g) (hown : 0 < own) :
    (g.tdiv one).tdiv own = 0 ↔ g < own * one := by
  have hquot : 0 ≤ g / one := Int.ediv_nonneg hg FixedPoint.one_pos.le
  rw [Int.tdiv_eq_ediv_of_nonneg hg, Int.tdiv_eq_ediv_of_nonneg hquot]
  constructor
  · intro hzero
    by_contra hle
    have hcovers : own ≤ g / one := by
      rw [Int.le_ediv_iff_mul_le FixedPoint.one_pos]
      omega
    have hone : 1 ≤ g / one / own := by
      rw [Int.le_ediv_iff_mul_le hown]
      omega
    omega
  · intro hlt
    apply Int.ediv_eq_zero_of_lt hquot
    rwa [Int.ediv_lt_iff_lt_mul FixedPoint.one_pos]

/-- The logarithm of a payment that is large enough is taken of a number of at least two. -/
theorem Sound.le_argument {m : Market} (h : m.Sound) {j : Fin maxOutcomes}
    (hj : j < m.outcomes) {payment : Int} (h0 : 0 ≤ payment)
    (hown : expValue (m.ratio j) * one ≤ m.gain payment) : 2 * one ≤ m.argument j payment := by
  have hpos := expValue_pos (h.own_nonneg hj)
  have hquot := (le_tdiv_iff (h.gain_nonneg h0) hpos).mpr hown
  rw [argument]
  omega

/-- What is not above the gain of a payment up to the limit fits, and so does the number with
one added to it. -/
theorem Sound.fits_of_le_gain {m : Market} (h : m.Sound) (hlive : m.Live) {payment : Int}
    (h0 : 0 ≤ payment) (hcharge : m.charge payment ≤ expLimit) {v : Int} (hv : 0 ≤ v)
    (hle : v ≤ m.gain payment) : Width.u128.Fits v ∧ Width.u128.Fits (v + one) := by
  have hgain := h.gain_le hlive h0 hcharge
  unfold Width.Fits
  simp only [Width.least, Width.greatest, one]
  omega

/-- The number whose logarithm a payment up to the limit mints fits. -/
theorem Sound.argument_le {m : Market} (h : m.Sound) (hlive : m.Live) {j : Fin maxOutcomes}
    (hj : j < m.outcomes) {payment : Int} (h0 : 0 ≤ payment)
    (hcharge : m.charge payment ≤ expLimit) : m.argument j payment ≤ Width.u128.greatest := by
  have hg := h.gain_nonneg h0
  have hquot : 0 ≤ (m.gain payment).tdiv (expValue (m.ratio j)) :=
    Int.tdiv_nonneg hg (expValue_pos (h.own_nonneg hj)).le
  obtain ⟨-, hfits⟩ := h.fits_of_le_gain hlive h0 hcharge hquot (Int.tdiv_le_self _ hg)
  exact hfits.2

/-! ## The answer of a mint -/

/-- The logarithm that a gain mints, if it covers the exponential `own` of the outcome. -/
def coveredLn (gain own : Int) : Except MarketError Int :=
  Width.u128.div (gain.tdiv one) own >>= fun whole =>
    if whole = 0 then .error .depositIsZero
    else Width.u128.div gain own >>= fun ratio => Width.u128.add ratio one >>= ln

/-- The logarithm that a charge mints of an outcome with the ratio `ratio`. -/
def mintedLn (pool : Except MarketError Int) (ratio charge : Int) : Except MarketError Int :=
  pool >>= fun sum => Width.u128.sub (expValue charge) one >>= fun growth =>
    Width.u128.mul sum growth >>= fun gain => coveredLn gain (expValue ratio)

/-- The last step of a mint: the scale times a logarithm, where that fits. -/
def sharesOf (scale l : Int) : Except MarketError Int :=
  Width.i128.mul scale l >>= fun shares =>
    if shares ≤ 0 then .error .depositIsZero
    else if Width.u64.greatest < shares then .error .mathOverflow
    else .ok shares

/-- A mint checks its arguments, computes a logarithm from the ratios and the charge, and then
the shares from the scale. -/
theorem mint_eq (m : Market) (j : Fin maxOutcomes) (payment : Int) :
    m.mint j payment =
      if payment ≤ 0 then .error .depositIsZero
      else if Width.u64.greatest < payment then .error .mathOverflow
      else if m.scale ≤ 0 then .error .liquidityParameterIsZero
      else mintedLn m.pool (m.ratio j) (m.charge payment) >>= sharesOf m.scale := by
  have hown : exp (m.supplies[j].tdiv m.scale) = .ok (expValue (m.ratio j)) := exp_eq_ok _
  have hgrown : exp ((payment * one).tdiv m.scale) = .ok (expValue (m.charge payment)) :=
    exp_eq_ok _
  rw [mint, hown, hgrown]
  refine if_congr Iff.rfl rfl (if_congr Iff.rfl rfl (if_congr Iff.rfl rfl ?_))
  rw [mintedLn, bind_assoc]
  refine bind_congr fun sum => ?_
  rw [ok_bind, ok_bind, bind_assoc]
  refine bind_congr fun growth => ?_
  rw [bind_assoc]
  refine bind_congr fun gain => ?_
  rw [coveredLn, bind_assoc]
  refine bind_congr fun whole => ?_
  split
  · rfl
  · simp only [bind_assoc]
    rfl

/-- A payment that fits, in a market with a scale, passes the checks of a mint. -/
theorem mint_of_pos {m : Market} (hscale : 0 < m.scale) (j : Fin maxOutcomes) {payment : Int}
    (h0 : 0 < payment) (hle : payment ≤ Width.u64.greatest) :
    m.mint j payment = mintedLn m.pool (m.ratio j) (m.charge payment) >>= sharesOf m.scale := by
  rw [mint_eq, if_neg (not_le.mpr h0), if_neg (not_lt.mpr hle), if_neg (not_le.mpr hscale)]

/-- The logarithm that a gain mints is of a number of at least two. -/
theorem pos_of_coveredLn {gain own l : Int} (hgain : 0 ≤ gain) (hown : 0 ≤ own)
    (h : coveredLn gain own = .ok l) : 0 < l := by
  obtain ⟨whole, hwhole, h⟩ := bind_eq_ok_iff.mp h
  obtain ⟨hne, -, rfl⟩ := Width.div_eq_ok_iff.mp hwhole
  have hpos : 0 < own := lt_of_le_of_ne hown (Ne.symm hne)
  split at h
  · exact absurd h (by simp)
  rename_i hcovers
  rw [whole_eq_zero_iff hgain hpos] at hcovers
  obtain ⟨ratio, hratio, h⟩ := bind_eq_ok_iff.mp h
  obtain ⟨-, -, rfl⟩ := Width.div_eq_ok_iff.mp hratio
  obtain ⟨argument, hargument, h⟩ := bind_eq_ok_iff.mp h
  obtain ⟨hfits, rfl⟩ := Width.add_eq_ok_iff.mp hargument
  have hquot := (le_tdiv_iff hgain hpos).mpr (not_lt.mp hcovers)
  have hlow := ln_two_le (by omega) hfits.2 h
  omega

/-- So is the logarithm that a charge mints. -/
theorem pos_of_mintedLn {pool : Except MarketError Int} {ratio charge l : Int}
    (h : mintedLn pool ratio charge = .ok l) : 0 < l := by
  obtain ⟨sum, -, h⟩ := bind_eq_ok_iff.mp h
  obtain ⟨growth, -, h⟩ := bind_eq_ok_iff.mp h
  obtain ⟨gain, hgain, h⟩ := bind_eq_ok_iff.mp h
  obtain ⟨hfits, rfl⟩ := Width.mul_eq_ok_iff.mp hgain
  exact pos_of_coveredLn hfits.1 (expValue_nonneg ratio) h

theorem mint_of_nonpos {m : Market} {j : Fin maxOutcomes} {payment : Int}
    (h0 : payment ≤ 0) : m.mint j payment = .error .depositIsZero := by
  rw [mint_eq, if_pos h0]

theorem mint_of_greatest_lt {m : Market} {j : Fin maxOutcomes} {payment : Int}
    (h : Width.u64.greatest < payment) : m.mint j payment = .error .mathOverflow := by
  have hmax : (0 : Int) ≤ Width.u64.greatest := by decide
  rw [mint_eq, if_neg (by omega), if_pos h]

/-- In any market, what a mint answers is positive. -/
theorem pos_of_mint {m : Market} {j : Fin maxOutcomes} {payment shares : Int}
    (h : m.mint j payment = .ok shares) : 0 < shares := by
  rw [mint_eq] at h
  split at h
  · simp at h
  split at h
  · simp at h
  split at h
  · simp at h
  obtain ⟨l, -, h⟩ := bind_eq_ok_iff.mp h
  obtain ⟨minted, -, h⟩ := bind_eq_ok_iff.mp h
  split at h
  · simp at h
  split at h
  · simp at h
  · obtain rfl := Except.ok.inj h
    omega

/-- Shares that do not fit the widest integers do not fit the market either. -/
theorem sharesOf_eq {scale l : Int} (hscale : 0 < scale) (hl : 0 < l) :
    sharesOf scale l =
      if Width.u64.greatest < scale * l then .error .mathOverflow else .ok (scale * l) := by
  have hprod : 0 < scale * l := mul_pos hscale hl
  rw [sharesOf]
  by_cases hfits : Width.i128.Fits (scale * l)
  · rw [Width.mul_eq_ok_iff.mpr ⟨hfits, rfl⟩, ok_bind, if_neg (not_le.mpr hprod)]
  · have hbig : Width.u64.greatest < scale * l := by
      by_contra hle
      apply hfits
      unfold Width.Fits
      simp only [Width.least, Width.greatest] at hle ⊢
      omega
    rw [Width.mul, Width.confine_of_not_fits hfits, error_bind, if_pos hbig]

theorem Sound.mint_of_not_live {m : Market} (h : m.Sound) (hlive : ¬ m.Live)
    (j : Fin maxOutcomes) {payment : Int} (hpayment : 0 < payment) :
    m.mint j payment = .error .mathOverflow := by
  rcases lt_or_ge Width.u64.greatest payment with hbig | hle
  · exact mint_of_greatest_lt hbig
  · rw [mint_of_pos h.scale_pos j hpayment hle, mintedLn, h.pool_of_not_live hlive, error_bind,
      error_bind]

/-- The pool of a live market and the growth of a payment always fit. -/
theorem Sound.mint_of_live {m : Market} (h : m.Sound) (hlive : m.Live) {j : Fin maxOutcomes}
    {payment : Int} (h0 : 0 < payment) (hle : payment ≤ Width.u64.greatest) :
    m.mint j payment =
      Width.u128.confine (m.gain payment) >>= fun gain =>
        coveredLn gain (expValue (m.ratio j)) >>= sharesOf m.scale := by
  have hgrown := one_le_expValue (h.charge_nonneg h0.le)
  have hmax := expValue_le_greatest (m.charge payment)
  have hfits : Width.u128.Fits (expValue (m.charge payment) - one) := by
    have hpos := FixedPoint.one_pos
    exact ⟨by simp only [Width.least]; omega, by omega⟩
  rw [mint_of_pos h.scale_pos j h0 hle, mintedLn, h.pool_of_live hlive, ok_bind,
    Width.sub_eq_ok_iff.mpr ⟨hfits, rfl⟩, ok_bind, bind_assoc]
  rfl

/-- The saturated exponential of a payment above the limit overflows. -/
theorem Sound.mint_of_limit_lt {m : Market} (h : m.Sound) (hlive : m.Live)
    {j : Fin maxOutcomes} {payment : Int} (h0 : 0 < payment)
    (hle : payment ≤ Width.u64.greatest) (hcharge : expLimit < m.charge payment) :
    m.mint j payment = .error .mathOverflow := by
  have hfits : ¬ Width.u128.Fits (m.gain payment) := fun hfits =>
    absurd (h.charge_le_of_fits hfits) (not_le.mpr hcharge)
  rw [h.mint_of_live hlive h0 hle, Width.confine_of_not_fits hfits, error_bind]

/-- A payment whose gain does not cover the exponential of the outcome is too small. -/
theorem Sound.mint_of_gain_lt {m : Market} (h : m.Sound) (hlive : m.Live)
    {j : Fin maxOutcomes} (hj : j < m.outcomes) {payment : Int} (h0 : 0 < payment)
    (hle : payment ≤ Width.u64.greatest) (hcharge : m.charge payment ≤ expLimit)
    (hown : m.gain payment < expValue (m.ratio j) * one) :
    m.mint j payment = .error .depositIsZero := by
  have hg := h.gain_nonneg h0.le
  have hpos := expValue_pos (h.own_nonneg hj)
  have hzero := (whole_eq_zero_iff hg hpos).mpr hown
  obtain ⟨hgfits, -⟩ := h.fits_of_le_gain hlive h0.le hcharge hg le_rfl
  rw [h.mint_of_live hlive h0 hle, Width.confine_of_fits hgfits, ok_bind, coveredLn,
    Width.div_eq_ok_iff.mpr ⟨ne_of_gt hpos, by rw [hzero]; decide, rfl⟩, ok_bind, if_pos hzero,
    error_bind]

/-- A payment that is large enough mints the scale times a logarithm, where that fits. -/
theorem Sound.mint_of_own_le {m : Market} (h : m.Sound) (hlive : m.Live)
    {j : Fin maxOutcomes} (hj : j < m.outcomes) {payment : Int} (h0 : 0 < payment)
    (hle : payment ≤ Width.u64.greatest) (hcharge : m.charge payment ≤ expLimit)
    (hown : expValue (m.ratio j) * one ≤ m.gain payment) :
    ∃ l, ln (m.argument j payment) = .ok l ∧ 0 < l ∧ m.mint j payment =
      if Width.u64.greatest < m.scale * l then .error .mathOverflow else .ok (m.scale * l) := by
  have hg := h.gain_nonneg h0.le
  have hpos := expValue_pos (h.own_nonneg hj)
  have hquot : 0 ≤ (m.gain payment).tdiv (expValue (m.ratio j)) := Int.tdiv_nonneg hg hpos.le
  have hwhole0 : 0 ≤ ((m.gain payment).tdiv one).tdiv (expValue (m.ratio j)) :=
    Int.tdiv_nonneg (Int.tdiv_nonneg hg FixedPoint.one_pos.le) hpos.le
  have hwholele : ((m.gain payment).tdiv one).tdiv (expValue (m.ratio j)) ≤ m.gain payment :=
    (Int.tdiv_le_self _ (Int.tdiv_nonneg hg FixedPoint.one_pos.le)).trans (Int.tdiv_le_self _ hg)
  obtain ⟨hgfits, -⟩ := h.fits_of_le_gain hlive h0.le hcharge hg le_rfl
  obtain ⟨hwfits, -⟩ := h.fits_of_le_gain hlive h0.le hcharge hwhole0 hwholele
  obtain ⟨hqfits, hargfits⟩ :=
    h.fits_of_le_gain hlive h0.le hcharge hquot (Int.tdiv_le_self _ hg)
  have hwhole : ¬ ((m.gain payment).tdiv one).tdiv (expValue (m.ratio j)) = 0 := by
    rw [whole_eq_zero_iff hg hpos]
    exact not_lt.mpr hown
  have htwo := h.le_argument hj h0.le hown
  obtain ⟨l, hl⟩ := ln_ok (le_trans (by decide) htwo) hargfits.2
  have hlow := ln_two_le htwo hargfits.2 hl
  refine ⟨l, hl, by omega, ?_⟩
  rw [h.mint_of_live hlive h0 hle, Width.confine_of_fits hgfits, ok_bind, coveredLn,
    Width.div_eq_ok_iff.mpr ⟨ne_of_gt hpos, hwfits, rfl⟩, ok_bind, if_neg hwhole,
    Width.div_eq_ok_iff.mpr ⟨ne_of_gt hpos, hqfits, rfl⟩, ok_bind,
    Width.add_eq_ok_iff.mpr ⟨hargfits, rfl⟩, ok_bind, ← argument, hl, ok_bind,
    sharesOf_eq h.scale_pos (by omega)]

/-- A payment is too small, too large, or passes all the checks. -/
theorem Sound.mint_cases {m : Market} (h : m.Sound) {j : Fin maxOutcomes} (hj : j < m.outcomes)
    (payment : Int) :
    m.mint j payment = .error .depositIsZero ∨ m.mint j payment = .error .mathOverflow ∨
      ∃ shares, m.mint j payment = .ok shares ∧ m.Minted j payment shares := by
  rcases le_or_gt payment 0 with hneg | h0
  · exact .inl (mint_of_nonpos hneg)
  rcases lt_or_ge Width.u64.greatest payment with hbig | hle
  · exact .inr (.inl (mint_of_greatest_lt hbig))
  by_cases hlive : m.Live
  swap
  · exact .inr (.inl (h.mint_of_not_live hlive j h0))
  rcases lt_or_ge expLimit (m.charge payment) with hlimit | hcharge
  · exact .inr (.inl (h.mint_of_limit_lt hlive h0 hle hlimit))
  rcases lt_or_ge (m.gain payment) (expValue (m.ratio j) * one) with hsmall | hown
  · exact .inl (h.mint_of_gain_lt hlive hj h0 hle hcharge hsmall)
  obtain ⟨l, hl, hlpos, hanswer⟩ := h.mint_of_own_le hlive hj h0 hle hcharge hown
  split at hanswer
  · exact .inr (.inl hanswer)
  · rename_i hfits
    exact .inr (.inr ⟨m.scale * l, hanswer, {
      payment_pos := h0
      payment_le := hle
      live := hlive
      charge_le := hcharge
      own_le := hown
      argument_le := h.argument_le hlive hj h0.le hcharge
      exists_ln := ⟨l, hl, rfl⟩
      shares_pos := mul_pos h.scale_pos hlpos
      shares_le := not_lt.mp hfits
    }⟩)

/-- A mint that is answered has passed all its checks. -/
theorem Sound.minted {m : Market} (h : m.Sound) {j : Fin maxOutcomes} (hj : j < m.outcomes)
    {payment shares : Int} (hmint : m.mint j payment = .ok shares) :
    m.Minted j payment shares := by
  rcases h.mint_cases hj payment with hsmall | hlarge | ⟨s, hanswer, hm⟩
  · rw [hsmall] at hmint
    simp at hmint
  · rw [hlarge] at hmint
    simp at hmint
  · obtain rfl := Except.ok.inj (hanswer.symm.trans hmint)
    exact hm

namespace Minted

variable {m : Market} {j : Fin maxOutcomes} {payment shares : Int}

theorem charge_nonneg (h : m.Sound) (hm : m.Minted j payment shares) :
    0 ≤ m.charge payment :=
  h.charge_nonneg hm.payment_pos.le

theorem gain_nonneg (h : m.Sound) (hm : m.Minted j payment shares) : 0 ≤ m.gain payment :=
  h.gain_nonneg hm.payment_pos.le

/-- The logarithm is taken of a number of at least two. -/
theorem le_argument (h : m.Sound) (hj : j < m.outcomes) (hm : m.Minted j payment shares) :
    2 * one ≤ m.argument j payment :=
  h.le_argument hj hm.payment_pos.le hm.own_le

/-- A mint is the scale times a logarithm of at least that of two. -/
theorem le_shares (h : m.Sound) (hj : j < m.outcomes) (hm : m.Minted j payment shares) :
    ∃ l, ln (m.argument j payment) = .ok l ∧ shares = m.scale * l ∧
      693147180 ≤ l ∧ l ≤ 70000000000 := by
  obtain ⟨l, hl, rfl⟩ := hm.exists_ln
  have hlow := hm.le_argument h hj
  have hone : one ≤ m.argument j payment := le_trans (by decide) hlow
  exact ⟨l, hl, rfl, ln_two_le hlow hm.argument_le hl, ln_le_seventy hone hm.argument_le hl⟩

/-- A market that mints has a scale whose least mint fits. -/
theorem scale_le (h : m.Sound) (hj : j < m.outcomes) (hm : m.Minted j payment shares) :
    693147180 * m.scale ≤ Width.u64.greatest := by
  obtain ⟨l, -, hshares, hl, -⟩ := hm.le_shares h hj
  have hmul := Int.mul_le_mul_of_nonneg_right hl (le_of_lt h.scale_pos)
  have := hm.shares_le
  rw [hshares, mul_comm] at this
  omega

end Minted

/-! ## The market after a trade -/

/-- The market with shares of an outcome sold for a payment. -/
def credit (m : Market) (j : Fin maxOutcomes) (shares payment : Int) : Market :=
  { m with
    supplies := m.supplies.set j (m.supplies.get j + shares) j.isLt
    reserves := m.reserves.set j (m.reserves.get j + payment) j.isLt }

@[simp] theorem credit_outcomes (m : Market) (j : Fin maxOutcomes) (shares payment : Int) :
    (m.credit j shares payment).outcomes = m.outcomes := rfl

@[simp] theorem credit_scale (m : Market) (j : Fin maxOutcomes) (shares payment : Int) :
    (m.credit j shares payment).scale = m.scale := rfl

theorem supply_credit (m : Market) (j : Fin maxOutcomes) (shares payment : Int) :
    (m.credit j shares payment).supplies.get j = m.supplies.get j + shares :=
  Vector.getElem_set_self j.isLt

/-- An index names the outcome at its place. -/
theorem outcome_eq_ok {m : Market} {i : Number} {j : Fin maxOutcomes} (h : m.outcome i = .ok j) :
    i = Number.ofInt j ∧ j < m.outcomes := by
  unfold outcome at h
  split at h
  · split at h
    · exact absurd h (by simp)
    · rename_i z hwhole
      split at h
      · rename_i hz
        obtain rfl := Except.ok.inj h
        have hcast : ((z.toNat : Nat) : Int) = z := Int.toNat_of_nonneg hz.1
        refine ⟨?_, by simp only; omega⟩
        simp only [hcast]
        exact Number.eq_ofInt_of_whole? hwhole
      · exact absurd h (by simp)
  · exact absurd h (by simp)

/-- Every outcome is named by its place. -/
theorem outcome_ofInt {m : Market} (hroom : m.outcomes ≤ maxOutcomes) {j : Fin maxOutcomes}
    (hj : j < m.outcomes) : m.outcome (Number.ofInt j) = .ok j := by
  have hnamed : 0 ≤ (j.val : Int) ∧ (j.val : Int) < m.outcomes := by omega
  rw [outcome, dif_pos hroom, Number.whole?_ofInt]
  simp only
  rw [dif_pos hnamed]
  rfl

/-- The outcomes of a market that has `n` of them, each named by its place. -/
theorem outcome_castLE {m : Market} {n : Nat} (hroom : n ≤ maxOutcomes) (hn : m.outcomes = n)
    (i : Fin n) : m.outcome (Number.ofInt i) = .ok (i.castLE hroom) := by
  subst hn
  exact outcome_ofInt (j := i.castLE hroom) hroom i.isLt

/-- A mint whose shares and payment still fit is booked. -/
theorem buy_of_mint {m : Market} {i : Number} {j : Fin maxOutcomes} {payment shares : Int}
    (hindex : m.outcome i = .ok j) (hmint : m.mint j payment = .ok shares)
    (hsfits : Width.u64.Fits (m.supplies.get j + shares))
    (hrfits : Width.u64.Fits (m.reserves.get j + payment)) :
    m.buy i payment = (.ok shares, m.credit j shares payment) := by
  have hsupply : Width.u64.add m.supplies[j] shares = .ok (m.supplies.get j + shares) :=
    Width.add_eq_ok_iff.mpr ⟨hsfits, rfl⟩
  have hreserve : Width.u64.add m.reserves[j] payment = .ok (m.reserves.get j + payment) :=
    Width.add_eq_ok_iff.mpr ⟨hrfits, rfl⟩
  rw [buy]
  simp only [hindex, hmint, hsupply, hreserve]
  rfl

/-- A purchase is refused and leaves the market as it is, or it is a mint whose shares and
payment still fit. -/
theorem buy_cases (m : Market) (i : Number) (payment : Int) :
    (∃ e, m.buy i payment = (.error e, m)) ∨
      ∃ j shares, m.outcome i = .ok j ∧ m.mint j payment = .ok shares ∧
        Width.u64.Fits (m.supplies.get j + shares) ∧ Width.u64.Fits (m.reserves.get j + payment) ∧
        m.buy i payment = (.ok shares, m.credit j shares payment) := by
  cases hindex : m.outcome i with
  | error e => exact .inl ⟨e, by simp only [buy, hindex]⟩
  | ok j =>
    cases hmint : m.mint j payment with
    | error e => exact .inl ⟨e, by simp only [buy, hindex, hmint]⟩
    | ok shares =>
      cases hsupply : Width.u64.add m.supplies[j] shares with
      | error e => exact .inl ⟨e, by simp only [buy, hindex, hmint, hsupply]⟩
      | ok supply =>
        cases hreserve : Width.u64.add m.reserves[j] payment with
        | error e => exact .inl ⟨e, by simp only [buy, hindex, hmint, hsupply, hreserve]⟩
        | ok reserve =>
          obtain ⟨hsfits, -⟩ := Width.add_eq_ok_iff.mp hsupply
          obtain ⟨hrfits, -⟩ := Width.add_eq_ok_iff.mp hreserve
          exact .inr ⟨j, shares, rfl, hmint, hsfits, hrfits,
            buy_of_mint hindex hmint hsfits hrfits⟩

/-- A purchase is answered like its checks, one after the other. -/
theorem fst_buy (m : Market) (i : Number) (payment : Int) :
    (m.buy i payment).1 = (do
      let j ← m.outcome i
      let shares ← m.mint j payment
      let _ ← Width.u64.add (m.supplies.get j) shares
      let _ ← Width.u64.add (m.reserves.get j) payment
      return shares) := by
  unfold buy
  cases m.outcome i with
  | error e => rfl
  | ok j =>
    simp only [ok_bind]
    cases m.mint j payment with
    | error e => rfl
    | ok shares =>
      simp only [ok_bind]
      change _ = (Width.u64.add m.supplies[j] shares >>= fun _ =>
        Width.u64.add m.reserves[j] payment >>= fun _ => pure shares)
      cases Width.u64.add m.supplies[j] shares with
      | error e => rfl
      | ok supply =>
        simp only [ok_bind]
        cases Width.u64.add m.reserves[j] payment with
        | error e => rfl
        | ok reserve => rfl

/-- A purchase is a mint whose shares and payment still fit. -/
theorem buy_eq_ok_iff {m after : Market} {i : Number} {payment shares : Int} :
    m.buy i payment = (.ok shares, after) ↔
      ∃ j, m.outcome i = .ok j ∧ m.mint j payment = .ok shares ∧
        Width.u64.Fits (m.supplies.get j + shares) ∧ Width.u64.Fits (m.reserves.get j + payment) ∧
        after = m.credit j shares payment := by
  constructor
  · intro h
    rcases m.buy_cases i payment with ⟨e, hrefused⟩ | ⟨j, s, hj, hs, hsfits, hrfits, hdone⟩
    · rw [hrefused] at h
      exact absurd (Prod.mk.inj h).1 (by simp)
    · rw [hdone] at h
      obtain ⟨hshares, rfl⟩ := Prod.mk.inj h
      obtain rfl := Except.ok.inj hshares
      exact ⟨j, hj, hs, hsfits, hrfits, rfl⟩
  · rintro ⟨j, hj, hs, hsfits, hrfits, rfl⟩
    exact buy_of_mint hj hs hsfits hrfits

/-- A purchase is refused and leaves the market as it is, or it is carried out. -/
theorem buy_refused_or_done (m : Market) (i : Number) (payment : Int) :
    (∃ e, m.buy i payment = (.error e, m)) ∨
      ∃ shares after, m.buy i payment = (.ok shares, after) := by
  rcases m.buy_cases i payment with hrefused | ⟨j, shares, -, -, -, -, hdone⟩
  · exact .inl hrefused
  · exact .inr ⟨shares, _, hdone⟩

/-- A purchase that is refused changes nothing. -/
theorem snd_buy_of_error {m : Market} {i : Number} {payment : Int} {e : MarketError}
    (h : (m.buy i payment).1 = .error e) : (m.buy i payment).2 = m := by
  rcases m.buy_refused_or_done i payment with ⟨e', hrefused⟩ | ⟨shares, after, hdone⟩
  · rw [hrefused]
  · rw [hdone] at h
    exact absurd h (by simp)

/-- The index of a trade names the same outcome before and after it. -/
theorem outcome_of_buy {m after : Market} {i : Number} {payment shares : Int}
    (hbuy : m.buy i payment = (.ok shares, after)) :
    ∃ j, m.outcome i = .ok j ∧ after.outcome i = .ok j := by
  obtain ⟨j, hindex, -, -, -, rfl⟩ := buy_eq_ok_iff.mp hbuy
  exact ⟨j, hindex, hindex⟩

/-- The supplies after a trade differ in the outcome sold. -/
theorem activeSupplies_credit (m : Market) (j : Fin maxOutcomes) (shares payment : Int) :
    (m.credit j shares payment).activeSupplies =
      m.activeSupplies.set j (m.supplies.get j + shares) := by
  simp only [activeSupplies, credit, Vector.toList_set, List.take_set]

/-- The ratios after a trade differ in the outcome sold. -/
theorem ratios_credit (m : Market) (j : Fin maxOutcomes) (shares payment : Int) :
    (m.credit j shares payment).ratios =
      m.ratios.set j ((m.supplies.get j + shares).tdiv m.scale) := by
  rw [ratios, activeSupplies_credit, List.map_set]
  rfl

/-- A mint that is a multiple of the scale adds to the ratio without rounding. -/
theorem Sound.ratios_credit {m : Market} (h : m.Sound) {j : Fin maxOutcomes}
    (hj : j < m.outcomes) {l : Int} (hl : 0 ≤ l) (payment : Int) :
    (m.credit j (m.scale * l) payment).ratios = m.ratios.set j (m.ratio j + l) := by
  have hpos := h.scale_pos
  have hsupply := h.supplies_nonneg _ (m.supply_mem hj)
  have hsum : 0 ≤ m.supplies.get j + m.scale * l := by
    have := mul_nonneg (le_of_lt hpos) hl
    omega
  have hratio : (m.supplies.get j + m.scale * l).tdiv m.scale = m.ratio j + l := by
    rw [ratio, Int.tdiv_eq_ediv_of_nonneg hsum, Int.tdiv_eq_ediv_of_nonneg hsupply,
      Int.add_mul_ediv_left _ _ (ne_of_gt hpos)]
  rw [Market.ratios_credit, hratio]

/-- The ratio of the outcome after a trade is one of the ratios. -/
theorem Sound.ratio_add_mem {m : Market} (h : m.Sound) {j : Fin maxOutcomes}
    (hj : j < m.outcomes) {l : Int} (hl : 0 ≤ l) (payment : Int) :
    m.ratio j + l ∈ (m.credit j (m.scale * l) payment).ratios := by
  rw [h.ratios_credit hj hl]
  refine List.mem_set ?_ _
  rwa [length_ratios h.outcomes_le]

/-- What an entry of a list adds to a sum changes with the entry alone. -/
theorem sum_map_set {α : Type} [AddCommGroup α] (f : Int → α) {xs : List Int} {i : Nat}
    {x : Int} (hx : xs[i]? = some x) (y : Int) :
    ((xs.set i y).map f).sum = (xs.map f).sum - f x + f y := by
  obtain ⟨hi, rfl⟩ := List.getElem?_eq_some_iff.mp hx
  rw [List.map_set, List.sum_set', dif_pos (by simpa using hi), List.getElem_map]
  abel

/-- A trade keeps a market sound. -/
theorem Sound.credit {m : Market} (h : m.Sound) {j : Fin maxOutcomes} (hj : j < m.outcomes)
    {l : Int} (hl : 0 ≤ l) (payment : Int) : (m.credit j (m.scale * l) payment).Sound := by
  refine ⟨h.le_outcomes, h.outcomes_le, h.scale_pos, ?_⟩
  intro s hs
  rw [activeSupplies_credit] at hs
  rcases List.mem_or_eq_of_mem_set hs with hold | rfl
  · exact h.supplies_nonneg s hold
  · have hsupply := h.supplies_nonneg _ (m.supply_mem hj)
    have hshares := mul_nonneg (le_of_lt h.scale_pos) hl
    omega

/-- A trade, with all that is known of it. -/
theorem Sound.trade {m after : Market} (h : m.Sound) {i : Number} {payment shares : Int}
    (hbuy : m.buy i payment = (.ok shares, after)) :
    ∃ j l, m.outcome i = .ok j ∧ j < m.outcomes ∧ m.Minted j payment shares ∧
      ln (m.argument j payment) = .ok l ∧ 693147180 ≤ l ∧ l ≤ 70000000000 ∧
      shares = m.scale * l ∧ after = m.credit j (m.scale * l) payment := by
  obtain ⟨j, hindex, hmint, -, -, rfl⟩ := buy_eq_ok_iff.mp hbuy
  obtain ⟨-, hj⟩ := outcome_eq_ok hindex
  have hm := h.minted hj hmint
  obtain ⟨l, hl, rfl, hlow, hhigh⟩ := hm.le_shares h hj
  exact ⟨j, l, hindex, hj, hm, hl, hlow, hhigh, rfl, rfl⟩

theorem Sound.buy {m after : Market} (h : m.Sound) {i : Number} {payment shares : Int}
    (hbuy : m.buy i payment = (.ok shares, after)) : after.Sound := by
  obtain ⟨j, l, -, hj, -, -, hlow, -, -, rfl⟩ := h.trade hbuy
  exact h.credit hj (by omega) payment

end PredictionMarket.Market
