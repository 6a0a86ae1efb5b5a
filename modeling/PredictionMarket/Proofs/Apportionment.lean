import Mathlib.Algebra.BigOperators.Fin
import Mathlib.Algebra.Order.BigOperators.Group.Finset
import Mathlib.Data.Rat.Floor
import Mathlib.Order.Interval.Finset.Fin
import Mathlib.Tactic.Linarith
import PredictionMarket.Market.Apportionment

/-!
# The largest remainders are served

`apportion` gives a spare unit to each weight whose rank is below the number of the
spare units.  This module says that it thereby gives out all units, and gives them
to whom they are due.

There are six groups.

* The order of service.  `Precedes` is the order that ranks count, and `place` is the
  rank of an entry.  The places are a permutation, so the first `k` of them are taken
  by `k` entries (`card_place_lt`).
* The spare units.  The remainders make them up (`total_mul_leftover`), so there are
  no more of them than entries that have lost anything (`leftover_le_card`).
* The shares.  `share` is what an entry gets, and `apportion_ofFn` ties it to
  `apportion`.
* The assembly.  `Fair` lists what a division by largest remainders owes to every
  entry, and `fair_share` says that `share` pays it.
* Growth.  When the weights change, a unit does not pass from one that is a larger
  part than before to one that is a smaller part (`share_le_or_share_le`).  As all units
  are given out before and after, a weight that grows alone does not lose any
  (`share_le_share_of_grown`).
* Order.  Weights in another order get the same shares, up to a unit for those that have
  lost as much as another (`share_reorder`, `abs_share_reorder_le`).

Weights are functions on `Fin n` here, as the statements are about pairs of entries.
-/

namespace PredictionMarket.Apportionment

open Finset

/-! ## The order of service -/

/-- The entry `i` is served before the entry `j`: it has lost more, or as much and
stands earlier. -/
def Precedes {n : Nat} (rs : Fin n → Int) (i j : Fin n) : Prop :=
  rs j < rs i ∨ (rs i = rs j ∧ i < j)

instance {n : Nat} (rs : Fin n → Int) (i j : Fin n) : Decidable (Precedes rs i j) :=
  inferInstanceAs (Decidable (_ ∨ _))

/-- How many entries are served before an entry. -/
def place {n : Nat} (rs : Fin n → Int) (j : Fin n) : Nat := #{i | Precedes rs i j}

section Places

variable {n : Nat} {rs : Fin n → Int} {i j k : Fin n}

theorem Precedes.trans (hij : Precedes rs i j) (hjk : Precedes rs j k) : Precedes rs i k := by
  unfold Precedes at *
  omega

theorem not_precedes_self (rs : Fin n → Int) (i : Fin n) : ¬ Precedes rs i i := by
  unfold Precedes
  omega

theorem precedes_or_precedes (rs : Fin n → Int) (h : i ≠ j) :
    Precedes rs i j ∨ Precedes rs j i := by
  unfold Precedes
  omega

/-- Of entries that have all lost differently the one that has lost more is served first. -/
theorem precedes_iff_lt (hdistinct : Function.Injective rs) : Precedes rs i j ↔ rs j < rs i := by
  constructor
  · rintro (hlost | ⟨heq, hlt⟩)
    · exact hlost
    · exact absurd (hdistinct heq) (ne_of_lt hlt)
  · exact Or.inl

theorem place_lt_place (h : Precedes rs i j) : place rs i < place rs j := by
  apply card_lt_card
  rw [ssubset_iff_of_subset]
  · exact ⟨i, by simpa using h, by simpa using not_precedes_self rs i⟩
  · intro k hk
    simp only [mem_filter, mem_univ, true_and] at hk ⊢
    exact hk.trans h

theorem place_lt (rs : Fin n → Int) (j : Fin n) : place rs j < n := by
  have hlt : #{i | Precedes rs i j} < #(univ : Finset (Fin n)) := by
    apply card_lt_card
    rw [ssubset_iff_of_subset (subset_univ _)]
    exact ⟨j, mem_univ j, by simpa using not_precedes_self rs j⟩
  rwa [card_univ, Fintype.card_fin] at hlt

/-- No two entries have the same place. -/
theorem place_injective (rs : Fin n → Int) :
    Function.Injective fun j => (⟨place rs j, place_lt rs j⟩ : Fin n) := by
  intro i j hij
  by_contra hne
  have hplace : place rs i = place rs j := congrArg Fin.val hij
  rcases precedes_or_precedes rs hne with h | h
  · have := place_lt_place h
    omega
  · have := place_lt_place h
    omega

/-- The first `k` places are taken by `k` entries. -/
theorem card_place_lt (rs : Fin n → Int) {k : Nat} (hk : k ≤ n) :
    #{j | place rs j < k} = k := by
  have hbij := Finite.injective_iff_bijective.mp (place_injective rs)
  have hcard : #{j | place rs j < k} = #{i : Fin n | i.val < k} :=
    card_bijective _ hbij (by simp)
  rw [hcard, Fin.card_filter_val_lt]
  exact min_eq_right hk

/-- Whoever has lost anything is served before whoever has lost nothing. -/
theorem card_le_place (rs : Fin n → Int) {j : Fin n} (h : rs j = 0) : #{i | 0 < rs i} ≤ place rs j := by
  apply card_le_card
  intro i hi
  simp only [mem_filter, mem_univ, true_and] at hi ⊢
  exact Or.inl (h ▸ hi)

/-- The rank of an entry is its place. -/
theorem rank_ofFn (rs : Fin n → Int) (j : Fin n) :
    rank (List.ofFn rs) (rs j) j = place rs j := by
  have hzip : (List.ofFn rs).zipIdx = List.ofFn fun i => (rs i, i.val) := by
    apply List.ext_getElem
    · simp
    · intro i hi hi'
      simp
  rw [rank, hzip, List.ofFn_eq_map, List.countP_map, place, Finset.card_def, Finset.filter_val,
    ← Multiset.countP_eq_card_filter, Fin.univ_def, Multiset.coe_countP]
  rfl

end Places

/-! ## The spare units -/

theorem leftover_eq (units total : Int) (ws : List Int) :
    leftover units total ws = units - (ws.map (quota units total)).sum := by
  unfold leftover
  induction ws with
  | nil => simp
  | cons w ws ih =>
    rw [List.foldr_cons, ih, List.map_cons, List.sum_cons]
    omega

theorem total_mul_quota (units total w : Int) :
    total * quota units total w + remainder units total w = w * units :=
  Int.mul_ediv_add_emod (w * units) total

theorem remainder_nonneg (units : Int) {total : Int} (htotal : 0 < total) (w : Int) :
    0 ≤ remainder units total w :=
  Int.emod_nonneg _ (ne_of_gt htotal)

theorem remainder_lt (units : Int) {total : Int} (htotal : 0 < total) (w : Int) :
    remainder units total w < total :=
  Int.emod_lt_of_pos _ htotal

section Shares

variable {n : Nat} {units total : Int} {ws : Fin n → Int} {i j : Fin n}

theorem leftover_ofFn (units total : Int) (ws : Fin n → Int) :
    leftover units total (List.ofFn ws) = units - ∑ i, quota units total (ws i) := by
  rw [leftover_eq, List.map_ofFn, List.sum_ofFn]
  rfl

/-- The spare units are what the remainders make together. -/
theorem total_mul_leftover (units : Int) (hsum : ∑ i, ws i = total) :
    total * leftover units total (List.ofFn ws) = ∑ i, remainder units total (ws i) := by
  have hsplit : ∑ i, (total * quota units total (ws i) + remainder units total (ws i)) =
      total * units := by
    simp only [total_mul_quota]
    rw [← sum_mul, hsum]
  rw [sum_add_distrib, ← mul_sum] at hsplit
  rw [leftover_ofFn, mul_sub]
  omega

theorem leftover_nonneg (units : Int) (htotal : 0 < total) (hsum : ∑ i, ws i = total) :
    0 ≤ leftover units total (List.ofFn ws) := by
  have hmul : 0 ≤ total * leftover units total (List.ofFn ws) := by
    rw [total_mul_leftover units hsum]
    exact sum_nonneg fun i _ => remainder_nonneg units htotal (ws i)
  exact nonneg_of_mul_nonneg_right hmul htotal

/-- No more units are spare than entries have lost anything. -/
theorem leftover_le_card (units : Int) (htotal : 0 < total) (hsum : ∑ i, ws i = total) :
    leftover units total (List.ofFn ws) ≤ #{i | 0 < remainder units total (ws i)} := by
  have hlost : ∑ i with 0 < remainder units total (ws i), remainder units total (ws i) ≤
      #{i | 0 < remainder units total (ws i)} • total :=
    sum_le_card_nsmul _ _ _ fun i _ => (remainder_lt units htotal (ws i)).le
  have hexact : ∑ i with ¬ 0 < remainder units total (ws i), remainder units total (ws i) ≤ 0 :=
    sum_nonpos fun i hi => not_lt.mp (mem_filter.mp hi).2
  have hmul : total * leftover units total (List.ofFn ws) ≤
      total * #{i | 0 < remainder units total (ws i)} := by
    rw [total_mul_leftover units hsum, ← sum_filter_add_sum_filter_not univ
      fun i => 0 < remainder units total (ws i)]
    rw [nsmul_eq_mul, mul_comm] at hlost
    omega
  exact le_of_mul_le_mul_left hmul htotal

/-! ## The shares -/

/-- What the entry `i` gets. -/
def share (units total : Int) (ws : Fin n → Int) (i : Fin n) : Int :=
  quota units total (ws i) +
    if (place (fun j => remainder units total (ws j)) i : Int) <
      leftover units total (List.ofFn ws) then 1 else 0

theorem apportion_ofFn (units total : Int) (ws : Fin n → Int) :
    apportion units total (List.ofFn ws) = List.ofFn (share units total ws) := by
  apply List.ext_getElem
  · simp
  · intro i hi hi'
    have hin : i < n := by simpa using hi'
    have hrank := rank_ofFn (fun j => remainder units total (ws j)) ⟨i, hin⟩
    simp only [apportion, List.getElem_map, List.getElem_zipIdx, List.getElem_ofFn,
      List.map_ofFn, Nat.zero_add, share, ← hrank]
    rfl

/-- Together the shares are all the units. -/
theorem sum_share (units : Int) (htotal : 0 < total) (hsum : ∑ i, ws i = total) :
    ∑ i, share units total ws i = units := by
  have hcard : #{i | 0 < remainder units total (ws i)} ≤ n :=
    (card_le_univ _).trans_eq (Fintype.card_fin n)
  have hle := leftover_le_card units htotal hsum
  obtain ⟨k, hk⟩ := Int.eq_ofNat_of_zero_le (leftover_nonneg units htotal hsum)
  have hplaces := card_place_lt (fun j => remainder units total (ws j)) (k := k) (by omega)
  simp only [share, hk, Nat.cast_lt]
  rw [sum_add_distrib, sum_boole, hplaces, ← hk, leftover_ofFn]
  omega

theorem share_eq_or (units total : Int) (ws : Fin n → Int) (i : Fin n) :
    share units total ws i = quota units total (ws i) ∨
      share units total ws i = quota units total (ws i) + 1 := by
  unfold share
  split
  · exact Or.inr rfl
  · exact Or.inl (add_zero _)

/-- An entry that has lost nothing gets no more than its quota. -/
theorem share_of_remainder_eq_zero (htotal : 0 < total) (hsum : ∑ i, ws i = total)
    (h : remainder units total (ws i) = 0) :
    share units total ws i = quota units total (ws i) := by
  have hle := leftover_le_card units htotal hsum
  have hplace := card_le_place (fun j => remainder units total (ws j)) h
  rw [share, if_neg (by omega), add_zero]

/-- An entry gets a spare unit if one that it precedes does. -/
theorem share_sub_quota_le (h : Precedes (fun k => remainder units total (ws k)) i j) :
    share units total ws j - quota units total (ws j) ≤
      share units total ws i - quota units total (ws i) := by
  have hplace := place_lt_place h
  unfold share
  split <;> split <;> omega

/-! ## What is due to every entry -/

/-- The units are divided in proportion to the weights, as far as whole units go. -/
structure Fair (units : Int) (ws ps : Fin n → Int) : Prop where
  /-- All units are given out. -/
  sum_eq : ∑ i, ps i = units
  /-- Every share is the exact one, rounded down or up. -/
  eq_floor_or_eq_ceil : ∀ i, ps i = ⌊((ws i * units : Int) : ℚ) / (∑ j, ws j : Int)⌋ ∨
    ps i = ⌈((ws i * units : Int) : ℚ) / (∑ j, ws j : Int)⌉
  /-- No share is negative. -/
  nonneg : ∀ i, 0 ≤ ps i
  /-- No share is more than all units. -/
  le_units : ∀ i, ps i ≤ units
  /-- A greater weight gets no less. -/
  le_of_lt : ∀ i j, ws j < ws i → ps j ≤ ps i
  /-- Of equal weights the earlier one gets the same, or one unit more. -/
  of_eq : ∀ i j, ws i = ws j → i < j → ps j ≤ ps i ∧ ps i ≤ ps j + 1

/-- A quota is the exact share rounded down. -/
theorem quota_eq_floor (units w : Int) (htotal : 0 < total) :
    quota units total w = ⌊((w * units : Int) : ℚ) / total⌋ := by
  rw [Int.floor_div_cast_of_nonneg htotal.le, Int.floor_intCast]
  rfl

/-- Where something is lost, the next unit is the exact share rounded up. -/
theorem quota_add_one_eq_ceil {w : Int} (htotal : 0 < total)
    (h : remainder units total w ≠ 0) :
    quota units total w + 1 = ⌈((w * units : Int) : ℚ) / total⌉ := by
  have hpos : (0 : ℚ) < total := by exact_mod_cast htotal
  have hsplit := total_mul_quota units total w
  rw [mul_comm total] at hsplit
  have hlow := remainder_nonneg units htotal w
  have hhigh := remainder_lt units htotal w
  symm
  rw [Int.ceil_eq_iff]
  push_cast
  rw [add_sub_cancel_right, lt_div_iff₀ hpos, div_le_iff₀ hpos]
  constructor
  · have : quota units total w * total < w * units := by omega
    exact_mod_cast this
  · have : w * units ≤ (quota units total w + 1) * total := by
      rw [add_mul, one_mul]
      omega
    exact_mod_cast this

/-- A quota grows with its weight. -/
theorem quota_mono {w w' : Int} (hunits : 0 ≤ units) (htotal : 0 < total) (h : w ≤ w') :
    quota units total w ≤ quota units total w' :=
  Int.ediv_le_ediv htotal (Int.mul_le_mul_of_nonneg_right h hunits)

/-- The greater of two weights with the same quota has lost more. -/
theorem remainder_lt_remainder {w w' : Int} (hunits : 0 < units) (h : w < w')
    (hquota : quota units total w = quota units total w') :
    remainder units total w < remainder units total w' := by
  have hsplit := total_mul_quota units total w
  have hsplit' := total_mul_quota units total w'
  have hlt := Int.mul_lt_mul_of_pos_right h hunits
  rw [hquota] at hsplit
  omega

/-- The shares of a greater weight are no less. -/
theorem share_le_share_of_lt (hunits : 0 < units) (htotal : 0 < total) (h : ws j < ws i) :
    share units total ws j ≤ share units total ws i := by
  have hle := quota_mono hunits.le htotal h.le
  rcases hle.eq_or_lt with heq | hlt
  · have hprecedes : Precedes (fun k => remainder units total (ws k)) i j :=
      Or.inl (remainder_lt_remainder hunits h heq)
    have := share_sub_quota_le hprecedes
    omega
  · have := share_eq_or units total ws i
    have := share_eq_or units total ws j
    omega

/-- Of equal weights the earlier one is served first. -/
theorem share_le_share_of_eq (h : ws i = ws j) (hij : i < j) :
    share units total ws j ≤ share units total ws i ∧
      share units total ws i ≤ share units total ws j + 1 := by
  have hprecedes : Precedes (fun k => remainder units total (ws k)) i j :=
    Or.inr ⟨congrArg (remainder units total) h, hij⟩
  have hspare := share_sub_quota_le hprecedes
  have hi := share_eq_or units total ws i
  have hj := share_eq_or units total ws j
  rw [h] at hspare hi
  omega

theorem fair_share (hunits : 0 < units) (hws : ∀ i, 0 ≤ ws i) (htotal : 0 < total)
    (hsum : ∑ i, ws i = total) : Fair units ws (share units total ws) := by
  have hquota : ∀ i, 0 ≤ quota units total (ws i) := fun i =>
    Int.ediv_nonneg (mul_nonneg (hws i) hunits.le) htotal.le
  have hnonneg : ∀ i, 0 ≤ share units total ws i := by
    intro i
    have := hquota i
    have := share_eq_or units total ws i
    omega
  have hall := sum_share units htotal hsum
  refine ⟨hall, ?_, hnonneg, ?_, ?_, ?_⟩
  · intro i
    rw [hsum, ← quota_eq_floor units (ws i) htotal]
    by_cases hexact : remainder units total (ws i) = 0
    · exact Or.inl (share_of_remainder_eq_zero htotal hsum hexact)
    · rw [← quota_add_one_eq_ceil htotal hexact]
      exact share_eq_or units total ws i
  · intro i
    calc share units total ws i ≤ ∑ j, share units total ws j :=
          single_le_sum (fun j _ => hnonneg j) (mem_univ i)
      _ = units := hall
  · intro i j
    exact share_le_share_of_lt hunits htotal
  · intro i j
    exact share_le_share_of_eq

/-! ## Two divisions of the same units -/

section Growth

variable {total' : Int} {ws' : Fin n → Int}

/-- A weight that is a larger part of its total has no smaller quota. -/
theorem quota_le_quota {w w' : Int} (hunits : 0 ≤ units) (htotal : 0 < total)
    (htotal' : 0 < total') (h : w * total' ≤ w' * total) :
    quota units total w ≤ quota units total' w' := by
  unfold quota
  rw [Int.le_ediv_iff_mul_le htotal']
  apply le_of_mul_le_mul_right _ htotal
  calc w * units / total * total' * total = w * units / total * total * total' := by ring
    _ ≤ w * units * total' := by
        apply Int.mul_le_mul_of_nonneg_right _ htotal'.le
        exact Int.ediv_mul_le _ (ne_of_gt htotal)
    _ = w * total' * units := by ring
    _ ≤ w' * total * units := Int.mul_le_mul_of_nonneg_right h hunits
    _ = w' * units * total := by ring

/-- With the same quota it has lost no smaller part. -/
theorem remainder_mul_le {w w' : Int} (hunits : 0 ≤ units) (h : w * total' ≤ w' * total)
    (hquota : quota units total w = quota units total' w') :
    remainder units total w * total' ≤ remainder units total' w' * total := by
  have hsplit := total_mul_quota units total w
  have hsplit' := total_mul_quota units total' w'
  have hle := Int.mul_le_mul_of_nonneg_right h hunits
  rw [← hquota] at hsplit'
  calc remainder units total w * total'
      = w * total' * units - total * total' * quota units total w := by
        rw [← sub_eq_iff_eq_add'.mpr hsplit.symm]
        ring
    _ ≤ w' * total * units - total * total' * quota units total w := by omega
    _ = remainder units total' w' * total := by
        rw [← sub_eq_iff_eq_add'.mpr hsplit'.symm]
        ring

/-- A unit does not pass from a weight that is a larger part than before to one that is a
smaller part. -/
theorem share_le_or_share_le (hunits : 0 ≤ units) (htotal : 0 < total) (htotal' : 0 < total')
    (hi : ws i * total' ≤ ws' i * total) (hj : ws' j * total ≤ ws j * total') :
    share units total ws i ≤ share units total' ws' i ∨
      share units total' ws' j ≤ share units total ws j := by
  by_contra hpassed
  push Not at hpassed
  obtain ⟨hloses, hgains⟩ := hpassed
  have hqi := quota_le_quota hunits htotal htotal' hi
  have hqj := quota_le_quota hunits htotal' htotal hj
  have hsi := share_eq_or units total ws i
  have hsi' := share_eq_or units total' ws' i
  have hsj := share_eq_or units total ws j
  have hsj' := share_eq_or units total' ws' j
  have hne : i ≠ j := by
    rintro rfl
    omega
  -- so both quotas stand still, and `i` has had the spare unit that `j` gets
  have hbefore : Precedes (fun k => remainder units total (ws k)) i j := by
    rcases precedes_or_precedes (fun k => remainder units total (ws k)) hne with h | h
    · exact h
    · have := share_sub_quota_le h
      omega
  have hafter : Precedes (fun k => remainder units total' (ws' k)) j i := by
    rcases precedes_or_precedes (fun k => remainder units total' (ws' k)) hne with h | h
    · have := share_sub_quota_le h
      omega
    · exact h
  have hri := remainder_mul_le hunits hi (by omega)
  have hrj := remainder_mul_le hunits hj (by omega)
  simp only [Precedes] at hbefore hafter
  -- as parts of the totals the four remainders are in a circle, so they are equal
  have hle : remainder units total (ws i) ≤ remainder units total (ws j) := by
    apply le_of_mul_le_mul_right _ htotal'
    exact (hri.trans (Int.mul_le_mul_of_nonneg_right (by omega) htotal.le)).trans hrj
  have hle' : remainder units total' (ws' j) ≤ remainder units total' (ws' i) := by
    apply le_of_mul_le_mul_right _ htotal
    exact (hrj.trans (Int.mul_le_mul_of_nonneg_right (by omega) htotal'.le)).trans hri
  omega

/-- The share of the only weight that is a larger part than before does not go down. -/
theorem share_le_share (hunits : 0 ≤ units) (htotal : 0 < total) (htotal' : 0 < total')
    (hsum : ∑ k, ws k = total) (hsum' : ∑ k, ws' k = total')
    (hi : ws i * total' ≤ ws' i * total)
    (hothers : ∀ j, j ≠ i → ws' j * total ≤ ws j * total') :
    share units total ws i ≤ share units total' ws' i := by
  by_contra hloses
  -- then no other one gains, and the units are not all given out
  have hnone : ∀ j, share units total' ws' j ≤ share units total ws j := by
    intro j
    rcases eq_or_ne j i with rfl | hne
    · omega
    · exact (share_le_or_share_le hunits htotal htotal' hi (hothers j hne)).resolve_left hloses
  have hless : ∑ j, share units total' ws' j < ∑ j, share units total ws j :=
    sum_lt_sum (fun j _ => hnone j) ⟨i, mem_univ i, not_le.mp hloses⟩
  rw [sum_share units htotal hsum, sum_share units htotal' hsum'] at hless
  exact lt_irrefl _ hless

/-- A weight that grows while the others stay does not get less. -/
theorem share_le_share_of_grown (hunits : 0 ≤ units) (htotal : 0 < total) (hws : ∀ k, 0 ≤ ws k)
    (hsum : ∑ k, ws k = total) (hsum' : ∑ k, ws' k = total') (hi : ws i ≤ ws' i)
    (hothers : ∀ j, j ≠ i → ws' j = ws j) :
    share units total ws i ≤ share units total' ws' i := by
  have hgrown : total' - total = ws' i - ws i := by
    rw [← hsum, ← hsum', ← sum_sub_distrib]
    apply sum_eq_single i
    · intro j _ hne
      rw [hothers j hne, sub_self]
    · simp
  have hpart : ws i ≤ total := by
    rw [← hsum]
    exact single_le_sum (fun k _ => hws k) (mem_univ i)
  refine share_le_share hunits htotal (by omega) hsum hsum' ?_ ?_
  · have hmul := Int.mul_le_mul_of_nonneg_left hpart (by omega : 0 ≤ ws' i - ws i)
    rw [show total' = total + (ws' i - ws i) by omega]
    linarith
  · intro j hne
    rw [hothers j hne]
    exact Int.mul_le_mul_of_nonneg_left (by omega) (hws j)

end Growth

/-! ## The same weights in another order -/

section Order

variable {ws' : Fin n → Int} (π : Equiv.Perm (Fin n))

include π

/-- Entries that have all lost differently are served in the same order wherever they
stand. -/
theorem place_reorder {rs rs' : Fin n → Int} (hrs : ∀ k, rs' (π k) = rs k)
    (hdistinct : Function.Injective rs) (j : Fin n) : place rs' (π j) = place rs j := by
  have hdistinct' : Function.Injective rs' := by
    rw [← Function.Injective.of_comp_iff' rs' π.bijective]
    rwa [show rs' ∘ π = rs from funext hrs]
  symm
  apply card_bijective π π.bijective
  intro i
  simp only [mem_filter, mem_univ, true_and, precedes_iff_lt hdistinct,
    precedes_iff_lt hdistinct', hrs]

theorem leftover_reorder (units total : Int) (hws : ∀ k, ws' (π k) = ws k) :
    leftover units total (List.ofFn ws') = leftover units total (List.ofFn ws) := by
  rw [leftover_ofFn, leftover_ofFn, ← Equiv.sum_comp π fun k => quota units total (ws' k)]
  simp only [hws]

/-- Weights that all lose differently get the same shares in any order. -/
theorem share_reorder (hws : ∀ k, ws' (π k) = ws k)
    (hdistinct : Function.Injective fun k => remainder units total (ws k)) (i : Fin n) :
    share units total ws' (π i) = share units total ws i := by
  have hplace : place (fun k => remainder units total (ws' k)) (π i) =
      place (fun k => remainder units total (ws k)) i :=
    place_reorder π (fun k => congrArg (remainder units total) (hws k)) hdistinct i
  rw [share, share, hws, hplace, leftover_reorder π units total hws]

/-- A weight gets the same share in any order, up to one unit. -/
theorem abs_share_reorder_le (units total : Int) (hws : ∀ k, ws' (π k) = ws k) (i : Fin n) :
    |share units total ws' (π i) - share units total ws i| ≤ 1 := by
  have hbefore := share_eq_or units total ws i
  have hafter := share_eq_or units total ws' (π i)
  rw [hws] at hafter
  rw [abs_le]
  omega

end Order

end Shares

end PredictionMarket.Apportionment
