import Mathlib
import PredictionMarket.Proofs.Number.Order
import PredictionMarket.Proofs.Text.Digits
import PredictionMarket.Request.Forms

/-!
# One order, two carriers

The order of a purchase comes in a body and that of a preview in a query, where the index of the
outcome is a text.  Both readers find the same in them, faults included, as long as the index is
a floating-point number: the text of an integer up to `2 ^ 53` is read without rounding
(`Field.indexText_digits`).

Payments are texts in both.  They are read exactly, whatever their size, and
`Field.amountOfText_eq_ok_iff` says which texts are payments.
-/

namespace PredictionMarket

namespace Field

/-- A text is an amount if it spells a natural of 64 bits. -/
theorem amountOfText_eq_ok_iff {t : Text} {n : Nat} :
    amountOfText t = .ok n ↔ t.Spells n ∧ n ≤ Width.u64.greatest := by
  rw [amountOfText, ← Text.chars?_bind_natural?_eq_some_iff]
  cases t.chars?.bind Text.natural? with
  | none => simp
  | some k =>
    simp only [Option.some.injEq]
    constructor
    · intro h
      split at h
      · rename_i hle
        obtain rfl := Except.ok.inj h
        exact ⟨rfl, hle⟩
      · exact absurd h (by simp)
    · rintro ⟨rfl, hle⟩
      rw [if_pos hle]

theorem amount_text_eq_ok_iff {t : Text} {n : Nat} :
    amount (some (.text t)) = .ok n ↔ t.Spells n ∧ n ≤ Width.u64.greatest :=
  amountOfText_eq_ok_iff

/-- The text of an integer is an amount just if the integer is a natural of 64 bits, and that
natural is read. -/
theorem amount_digits_eq_ok_iff {v : Int} {n : Nat} :
    amount (some (Json.digits v)) = .ok n ↔ (n : Int) = v ∧ v ≤ Width.u64.greatest := by
  rw [Json.digits, amount_text_eq_ok_iff, Text.spells_integer_iff]
  constructor
  · rintro ⟨rfl, hle⟩
    exact ⟨rfl, hle⟩
  · rintro ⟨rfl, hle⟩
    exact ⟨rfl, hle⟩

/-- The text of an index up to `2 ^ 53` is read without rounding. -/
theorem indexText_digits {k : Nat} (hk : k ≤ 2 ^ 53) :
    indexText (some (Json.digits k)) = .ok k := by
  have hread : (Text.ofString (Text.integer k)).chars?.bind Text.natural? = some k :=
    Text.chars?_bind_natural?_eq_some_iff.mpr (Text.spells_integer_iff.mpr rfl)
  have hnearest : Number.nearest (Rat.ofInt k) = .finite (Rat.ofInt k) :=
    Number.representable_natCast hk
  show indexOfText (Text.ofString (Text.integer k)) = .ok k
  rw [indexOfText, hread]
  simp only [hnearest]
  rfl

/-- An index that is a number is read as it is. -/
theorem natural_ofInt (k : Nat) : natural (some (Json.ofInt k)) = .ok k := by
  have hwhole : (Number.finite (k : Rat)).whole? = some (k : Int) := rfl
  show natural (some (.number (.finite (k : Rat)))) = .ok k
  simp [natural, number, ok_bind, wholeFaults, hwhole]

end Field

namespace OrderForm

/-- The object of an order. -/
def encode (outcome payment : Json) : Json :=
  .object [("outcomeIndex", outcome), ("amount", payment)]

theorem read_encode (outcome payment : Json) :
    read (some (encode outcome payment)) =
      ofFields (Field.natural (some outcome)) (Field.amount (some payment)) :=
  rfl

theorem readQuery_encode (outcome payment : Json) :
    readQuery (some (encode outcome payment)) =
      ofFields (Field.indexText (some outcome)) (Field.amount (some payment)) :=
  rfl

/-- An order is read if both of its fields are. -/
theorem ofFields_eq_ok_iff {outcome payment : Field Nat} {form : OrderForm} :
    ofFields outcome payment = .ok form ↔
      outcome = .ok form.outcome ∧ payment = .ok form.payment := by
  obtain ⟨k, n⟩ := form
  cases outcome <;> cases payment <;> simp [ofFields]

/-- A preview of an order and its purchase are read alike, and refused with the same faults.
They are read just if the payment is a run of digits that spells a natural of 64 bits, and every
natural of 64 bits comes back from its text. -/
theorem quotes_and_orders_agree {k : Nat} (hk : k ≤ 2 ^ 53) (s : Text) :
    readQuery (some (encode (Json.digits k) (.text s))) =
      read (some (encode (Json.ofInt k) (.text s))) ∧
    (∀ form, read (some (encode (Json.ofInt k) (.text s))) = .ok form ↔
      form.outcome = k ∧ s.Spells form.payment ∧ form.payment ≤ Width.u64.greatest) ∧
    ((∃ n, s.Spells n) ↔ ∃ cs, Text.IsNatural cs ∧ s = Text.ofString (String.ofList cs)) ∧
    (∀ n n', s.Spells n → s.Spells n' → n = n') ∧
    ∀ v : Int,
      ((∃ n, Field.amount (some (Json.digits v)) = .ok n) ↔ 0 ≤ v ∧ v ≤ Width.u64.greatest) ∧
      ∀ n, Field.amount (some (Json.digits v)) = .ok n → (n : Int) = v := by
  refine ⟨?_, ?_, Text.exists_spells_iff, fun n n' => Text.Spells.unique, fun v => ⟨?_, ?_⟩⟩
  · rw [readQuery_encode, Field.indexText_digits hk, read_encode, Field.natural_ofInt]
  · intro form
    rw [read_encode, ofFields_eq_ok_iff, Field.natural_ofInt, Field.amount_text_eq_ok_iff,
      Except.ok.injEq, eq_comm]
  · simp only [Field.amount_digits_eq_ok_iff]
    constructor
    · rintro ⟨n, rfl, hle⟩
      exact ⟨Int.natCast_nonneg n, hle⟩
    · rintro ⟨h0, hle⟩
      exact ⟨v.toNat, Int.toNat_of_nonneg h0, hle⟩
  · intro n hn
    exact (Field.amount_digits_eq_ok_iff.mp hn).1

/-- The greatest amount behind two zeros, for the last index below a gap of the floating-point
numbers. -/
theorem quotes_and_orders_agree_greatest :
    2 ^ 53 ≤ 2 ^ 53 ∧
      (Text.ofString "0018446744073709551615").Spells 18446744073709551615 ∧
      readQuery (some (encode (Json.digits (2 ^ 53 : Nat))
        (.text (Text.ofString "0018446744073709551615")))) =
        .ok ⟨2 ^ 53, 18446744073709551615⟩ := by
  have hspells : (Text.ofString "0018446744073709551615").Spells 18446744073709551615 :=
    ⟨2, by decide⟩
  obtain ⟨hquery, hread, -⟩ :=
    quotes_and_orders_agree (k := 2 ^ 53) le_rfl (Text.ofString "0018446744073709551615")
  refine ⟨le_rfl, hspells, ?_⟩
  rw [hquery, hread]
  exact ⟨rfl, hspells, by decide⟩

end OrderForm

end PredictionMarket
