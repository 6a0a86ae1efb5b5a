import Mathlib
import PredictionMarket.Http.Results
import PredictionMarket.Proofs.FixedPoint.Decimal
import PredictionMarket.Proofs.Market.Prices

/-!
# The probabilities of a snapshot

A snapshot shows its prices twice, and the second time as decimals.  A price is between zero
and one, so it has ten digits at most and its decimal is exact.  As the prices share out one
without a rest, the decimals do, too, to the last place (`sum_prices`).
-/

namespace PredictionMarket.Market

open FixedPoint

variable {m : Market}

/-- A snapshot shows the prices of its market. -/
theorem prices_of_snapshot {s : Snapshot} (h : m.snapshot = .ok s) : m.prices = .ok s.prices := by
  obtain ⟨cost, -, h⟩ := bind_eq_ok_iff.mp h
  obtain ⟨prices, hprices, h⟩ := bind_eq_ok_iff.mp h
  obtain ⟨loss, -, h⟩ := bind_eq_ok_iff.mp h
  rw [hprices, ← Except.ok.inj h]

/-- An exponential that does not vanish is the weight of an outcome. -/
theorem exists_weight_ne_zero (hroom : m.outcomes ≤ maxOutcomes) {es : List Int}
    (hes : m.exponentials = .ok es) (hne : ∃ e ∈ es, e ≠ 0) : ∃ j, m.weight hroom j ≠ 0 := by
  rw [exponentials_eq, map_expValue_ratios hroom] at hes
  obtain rfl := Except.ok.inj hes
  obtain ⟨e, he, hne⟩ := hne
  obtain ⟨j, rfl⟩ := List.mem_ofFn.mp he
  exact ⟨j, hne⟩

/-- Where an exponential does not vanish, the prices lie between zero and one and make up
one. -/
theorem sum_prices {ps es : List Int} (hps : m.prices = .ok ps) (hes : m.exponentials = .ok es)
    (hne : ∃ e ∈ es, e ≠ 0) : (∀ p ∈ ps, 0 ≤ p ∧ p ≤ one) ∧ ps.sum = one := by
  obtain ⟨hroom, hscale⟩ := terms_of_prices hps
  have hpos := poolValue_pos hroom (exists_weight_ne_zero hroom hes hne)
  rcases prices_cases hroom hscale hps with ⟨hzero, -⟩ | ⟨-, rfl⟩
  · exact absurd hzero (ne_of_gt hpos)
  · have hfair := Apportionment.fair_share FixedPoint.one_pos (weight_nonneg hroom) hpos
      (poolValue_eq_sum_weight hroom).symm
    refine ⟨?_, by rw [List.sum_ofFn, hfair.sum_eq]⟩
    intro p hp
    obtain ⟨j, rfl⟩ := List.mem_ofFn.mp hp
    exact ⟨hfair.nonneg j, hfair.le_units j⟩

/-- The decimal of a price is the price. -/
theorem fraction?_text {p : Int} (h0 : 0 ≤ p) (h1 : p ≤ one) :
    fraction? (text p) = some ((p : ℚ) / 10 ^ 9) := by
  have hdigits : |p| < 10 ^ 20 := by
    rw [abs_of_nonneg h0]
    exact lt_of_le_of_lt h1 (by decide)
  rw [fraction?, units?_text_of_abs_lt hdigits, Option.map_some]

/-- Fractions of a list of units make up the fraction of their sum. -/
theorem sum_fractions (ps : List Int) :
    (ps.map fun p : Int => (p : ℚ) / 10 ^ 9).sum = ((ps.sum : Int) : ℚ) / 10 ^ 9 := by
  induction ps with
  | nil => simp
  | cons p ps ih =>
    rw [List.map_cons, List.sum_cons, ih, List.sum_cons]
    push_cast
    ring

/-- A number with nine places is written as a decimal and read back as it is, if it has no more
than twenty digits, so different numbers have different decimals.  A longer one is read back
rounded to the place of the twentieth digit.

The probabilities of a snapshot are decimals.  Where an exponential does not vanish, they name
the prices without a loss, lie between zero and one, and make up one. -/
theorem decimals_are_exact :
    (∀ v : Int, IsDecimal (text v)) ∧
    (∀ v : Int, |v| < 10 ^ 20 → units? (text v) = some v) ∧
    (∀ v v' : Int, |v| < 10 ^ 20 → |v'| < 10 ^ 20 → text v = text v' → v = v') ∧
    (∀ (v : Int) (d : Nat), 20 < d → 10 ^ (d - 1) ≤ |v| → |v| < 10 ^ d →
      ∃ r, units? (text v) = some r ∧ NearestMultiple (10 ^ (d - 20)) v r) ∧
    ∀ (m : Market) (s : Snapshot) (es : List Int), m.snapshot = .ok s →
      m.exponentials = .ok es → (∃ e ∈ es, e ≠ 0) →
      ∃ (fields : List (Text × Json)) (decimals : List String) (qs : List ℚ), s.toJson = .object fields ∧
        Json.field? fields "probabilities" = some (.texts (decimals.map Text.ofString)) ∧
        decimals.map fraction? = qs.map some ∧
        qs = s.prices.map (fun p : Int => (p : ℚ) / 10 ^ 9) ∧
        (∀ q ∈ qs, 0 ≤ q ∧ q ≤ 1) ∧ qs.sum = 1 := by
  refine ⟨isDecimal_text, fun v => units?_text_of_abs_lt, ?_, ?_, ?_⟩
  · intro v v' hv hv' htext
    have hread := units?_text_of_abs_lt hv
    rw [htext, units?_text_of_abs_lt hv'] at hread
    exact (Option.some.inj hread).symm
  · intro v d hd hlow hhigh
    exact ⟨rounded v, units?_text v, nearestMultiple_rounded hd hlow hhigh⟩
  · intro m s es hs hes hne
    obtain ⟨hbounds, hsum⟩ := sum_prices (prices_of_snapshot hs) hes hne
    have hone : ((one : Int) : ℚ) = 10 ^ 9 := by norm_num [one]
    refine ⟨_, s.prices.map text, s.prices.map fun p : Int => (p : ℚ) / 10 ^ 9, rfl, ?_, ?_, rfl,
      ?_, ?_⟩
    · rw [List.map_map]
      rfl
    · rw [List.map_map, List.map_map]
      refine List.map_congr_left fun p hp => ?_
      exact fraction?_text (hbounds p hp).1 (hbounds p hp).2
    · intro q hq
      obtain ⟨p, hp, rfl⟩ := List.mem_map.mp hq
      obtain ⟨h0, h1⟩ := hbounds p hp
      have hp0 : (0 : ℚ) ≤ p := by exact_mod_cast h0
      have hp1 : (p : ℚ) ≤ 10 ^ 9 := by
        rw [← hone]
        exact_mod_cast h1
      exact ⟨by positivity, div_le_one_of_le₀ hp1 (by norm_num)⟩
    · rw [sum_fractions, hsum, hone]
      norm_num

/-- A number between minus one and zero, a tie at the twenty-first digit, which goes away from
zero and carries, and the decimals of a market with a negative supply. -/
theorem decimals_are_exact_overdrawn :
    text (-5) = "-0.000000005" ∧ units? "-0.000000005" = some (-5) ∧
      text (-199999999999999999995) = "-200000000000.000000000" ∧
      NearestMultiple 10 (-199999999999999999995) (-200000000000000000000) ∧
      ∃ (fields : List (Text × Json)) (decimals : List String) (qs : List ℚ),
        overdrawn.snapshot = .ok ⟨overdrawn, 5, [55409297, 472295352, 472295351], 7⟩ ∧
        Json.field? fields "probabilities" = some (.texts (decimals.map Text.ofString)) ∧
        decimals.map fraction? = qs.map some ∧
        qs = [55409297 / 10 ^ 9, 472295352 / 10 ^ 9, 472295351 / 10 ^ 9] ∧ qs.sum = 1 := by
  have hsmall : text (-5) = "-0.000000005" := by decide +kernel
  have htie : text (-199999999999999999995) = "-200000000000.000000000" := by decide +kernel
  have hread : units? "-200000000000.000000000" = some (-200000000000000000000) := by cbv
  have hsnapshot : overdrawn.snapshot = .ok ⟨overdrawn, 5, [55409297, 472295352, 472295351], 7⟩ := by
    cbv
  have hes : overdrawn.exponentials = .ok [117319166, 1000000000, 1000000000] := by cbv
  obtain ⟨-, hexact, -, hrounded, hshown⟩ := decimals_are_exact
  obtain ⟨r, hr, hnear⟩ := hrounded (-199999999999999999995) 21 (by decide) (by decide) (by decide)
  rw [htie, hread] at hr
  obtain rfl := Option.some.inj hr
  have hback := hexact (-5) (by decide)
  rw [hsmall] at hback
  obtain ⟨fields, decimals, qs, -, hfield, hfractions, hqs, -, hsum⟩ :=
    hshown overdrawn _ _ hsnapshot hes ⟨1000000000, by decide, by decide⟩
  exact ⟨hsmall, hback, htie, hnear, fields, decimals, qs, hsnapshot, hfield, hfractions, hqs, hsum⟩

end PredictionMarket.Market
