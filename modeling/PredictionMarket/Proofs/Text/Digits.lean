import Mathlib
import PredictionMarket.Text.Basic
import PredictionMarket.Text.Digits

/-!
# The spellings of a natural

A natural has one spelling for every number of leading zeros, and no other.  `Spells` lists
these spellings without a reader, and `natural?_eq_some_iff` says that a reader of digits
accepts them all and reads each as what it spells.

The digits are appended one by one.  A further digit makes a greater natural, or a zero in front
of it a leading one (`decimal_append_digit`).

Zeros in front also fill up places behind a point.  `natural?_append_padded` reads the digits on
both sides of a point as one natural.
-/

namespace PredictionMarket.Text

/-- A digit is the character of its value. -/
theorem exists_digitChar {c : Char} (h : c.isDigit) : ∃ d < 10, c = Nat.digitChar d := by
  obtain ⟨hlow, hhigh⟩ := Char.isDigit_iff_toNat.mp h
  have hzero : '0'.toNat = 48 := rfl
  have hnine : '9'.toNat = 57 := rfl
  refine ⟨c.toNat - 48, by omega, ?_⟩
  apply Char.toNat_inj.mp
  rw [Nat.toNat_digitChar_of_lt_ten (by omega)]
  omega

/-- The digits of a natural and one more digit are the digits of a natural, behind a zero if the
first one is zero. -/
theorem decimal_append_digit (n : Nat) {d : Nat} (hd : d < 10) :
    ∃ zeros, decimal n ++ [d.digitChar] = List.replicate zeros '0' ++ decimal (10 * n + d) := by
  have hdigit : decimal d = [d.digitChar] := Nat.toDigits_of_lt_base hd
  rcases Nat.eq_zero_or_pos n with rfl | hn
  · exact ⟨1, by rw [← hdigit, Nat.mul_zero, Nat.zero_add]; rfl⟩
  · refine ⟨0, ?_⟩
    rw [← hdigit]
    exact Nat.toDigits_append_toDigits (by decide) hn hd

/-- A run of digits is the digits of a natural behind some zeros. -/
theorem IsNatural.exists_zeros {cs : List Char} (h : IsNatural cs) :
    ∃ zeros n, cs = List.replicate zeros '0' ++ decimal n := by
  induction cs using List.reverseRecOn with
  | nil => exact absurd rfl h.1
  | append_singleton cs c ih =>
    obtain ⟨d, hd, rfl⟩ := exists_digitChar (h.2 c (by simp))
    rcases eq_or_ne cs [] with rfl | hne
    · exact ⟨0, d, (Nat.toDigits_of_lt_base hd).symm⟩
    · obtain ⟨zeros, n, rfl⟩ := ih ⟨hne, fun c hc => h.2 c (List.mem_append_left _ hc)⟩
      obtain ⟨zeros', hdigits⟩ := decimal_append_digit n hd
      refine ⟨zeros + zeros', 10 * n + d, ?_⟩
      rw [List.append_assoc, hdigits, ← List.append_assoc, List.replicate_append_replicate]

/-- Leading zeros are digits, too. -/
theorem isNatural_zeros_append (zeros n : Nat) :
    IsNatural (List.replicate zeros '0' ++ decimal n) := by
  obtain ⟨hne, hdigits⟩ := isNatural_decimal n
  refine ⟨List.append_ne_nil_of_right_ne_nil _ hne, ?_⟩
  intro c hc
  rcases List.mem_append.mp hc with hzero | hrest
  · rw [List.eq_of_mem_replicate hzero]
    rfl
  · exact hdigits c hrest

/-- Leading zeros are read as nothing. -/
theorem natural?_zeros_append (zeros n : Nat) :
    natural? (List.replicate zeros '0' ++ decimal n) = some n := by
  rw [natural?, if_pos (isNatural_zeros_append zeros n), Nat.ofDigitChars_append,
    Nat.ofDigitChars_replicate_zero, Nat.mul_zero, decimal,
    Nat.ofDigitChars_toDigits (by decide) (by decide)]

/-- A run of digits names a natural if it is the digits of it behind some zeros. -/
theorem natural?_eq_some_iff {cs : List Char} {n : Nat} :
    natural? cs = some n ↔ ∃ zeros, cs = List.replicate zeros '0' ++ decimal n := by
  constructor
  · intro h
    have hnatural : IsNatural cs := by
      by_contra hnot
      rw [natural?_eq_none_iff.mpr hnot] at h
      exact absurd h (by simp)
    obtain ⟨zeros, k, rfl⟩ := hnatural.exists_zeros
    rw [natural?_zeros_append] at h
    obtain rfl := Option.some.inj h
    exact ⟨zeros, rfl⟩
  · rintro ⟨zeros, rfl⟩
    exact natural?_zeros_append zeros n

/-! ## Digits in a place -/

/-- Digits begin with a zero only where they are those of zero. -/
theorem decimal_eq_of_head?_eq_zero {n : Nat} (h : (decimal n).head? = some '0') :
    decimal n = ['0'] := by
  induction n using Nat.strongRecOn with
  | _ n ih =>
    rcases Nat.lt_or_ge n 10 with hlt | hge
    · rw [decimal, Nat.toDigits_of_lt_base hlt] at h ⊢
      rw [Option.some.inj h]
    · have hsplit : decimal n = decimal (n / 10) ++ [(n % 10).digitChar] :=
        Nat.toDigits_of_base_le (by decide) hge
      rw [hsplit, List.head?_append_of_ne_nil _ (isNatural_decimal _).1] at h
      have hzero := natural?_decimal (n / 10)
      rw [ih _ (by omega) h] at hzero
      have hquot : 0 = n / 10 := Option.some.inj hzero
      omega

/-- A natural of no more digits than there are places fills the places. -/
theorem length_padded {width n : Nat} (hwidth : 0 < width) (h : n < 10 ^ width) :
    (padded width n).length = width := by
  have hle : (decimal n).length ≤ width := (Nat.length_toDigits_le_iff (by decide) hwidth).mpr h
  rw [padded, List.length_append, List.length_replicate]
  omega

theorem isNatural_padded (width n : Nat) : IsNatural (padded width n) :=
  isNatural_zeros_append _ n

/-- Digits with places behind them count units of the last place. -/
theorem natural?_append_padded (k : Nat) {width n : Nat} (hwidth : 0 < width)
    (h : n < 10 ^ width) :
    natural? (decimal k ++ padded width n) = some (10 ^ width * k + n) := by
  obtain ⟨hne, hdecimal⟩ := isNatural_decimal k
  have hdigits : IsNatural (decimal k ++ padded width n) := by
    refine ⟨List.append_ne_nil_of_left_ne_nil hne _, fun c hc => ?_⟩
    rcases List.mem_append.mp hc with hleft | hright
    · exact hdecimal c hleft
    · exact (isNatural_padded width n).2 c hright
  have hplaces : Nat.ofDigitChars 10 (padded width n) 0 = n := by
    have hread : natural? (padded width n) = some n := natural?_zeros_append _ n
    rw [natural?, if_pos (isNatural_padded width n)] at hread
    exact Option.some.inj hread
  rw [natural?, if_pos hdigits, Nat.ofDigitChars_append, decimal,
    Nat.ofDigitChars_toDigits (by decide) (by decide), Nat.ofDigitChars_eq_ofDigitChars_zero,
    hplaces, length_padded hwidth h]

/-! ## Texts -/

/-- The text is the decimal digits of the natural, behind any number of zeros. -/
def Spells (t : Text) (n : Nat) : Prop :=
  ∃ zeros, t = ofString (String.ofList (List.replicate zeros '0' ++ decimal n))

/-- A text that spells a natural is read as that natural. -/
theorem chars?_bind_natural?_eq_some_iff {t : Text} {n : Nat} :
    t.chars?.bind natural? = some n ↔ t.Spells n := by
  rw [Option.bind_eq_some_iff]
  constructor
  · rintro ⟨cs, hcs, hread⟩
    obtain ⟨zeros, rfl⟩ := natural?_eq_some_iff.mp hread
    refine ⟨zeros, ?_⟩
    rw [← string?_eq_some_iff, string?, hcs]
    rfl
  · rintro ⟨zeros, rfl⟩
    refine ⟨_, chars?_ofString _, ?_⟩
    rw [String.toList_ofList, natural?_zeros_append]

/-- No text spells two naturals. -/
theorem Spells.unique {t : Text} {n n' : Nat} (h : t.Spells n) (h' : t.Spells n') : n = n' := by
  rw [← chars?_bind_natural?_eq_some_iff] at h h'
  exact Option.some.inj (h.symm.trans h')

/-- A text spells some natural just if it is a run of digits. -/
theorem exists_spells_iff {t : Text} :
    (∃ n, t.Spells n) ↔ ∃ cs, IsNatural cs ∧ t = ofString (String.ofList cs) := by
  constructor
  · rintro ⟨n, zeros, rfl⟩
    exact ⟨_, isNatural_zeros_append zeros n, rfl⟩
  · rintro ⟨cs, hnatural, rfl⟩
    obtain ⟨zeros, n, rfl⟩ := hnatural.exists_zeros
    exact ⟨n, zeros, rfl⟩

/-- The text of an integer spells that integer, and no natural if the integer is negative. -/
theorem spells_integer_iff {v : Int} {n : Nat} :
    (ofString (integer v)).Spells n ↔ (n : Int) = v := by
  rw [← chars?_bind_natural?_eq_some_iff, chars?_ofString, Option.bind_some, integer,
    String.toList_ofList]
  split
  · rename_i hneg
    have hsign : natural? ('-' :: decimal v.natAbs) = none := by
      rw [natural?_eq_none_iff]
      intro hnatural
      exact absurd (hnatural.2 '-' List.mem_cons_self) (by decide)
    rw [hsign]
    refine iff_of_false (by simp) ?_
    omega
  · rw [natural?_decimal, Option.some.injEq]
    omega

end PredictionMarket.Text
