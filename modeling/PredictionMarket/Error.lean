/-!
# Why an operation is refused

Every operation on a market answers with a value or with one of the twelve
causes of `MarketError`.  The causes are the same for the arithmetic, for a
single market and for the registry, so a refusal passes through all three
unchanged.
-/

namespace PredictionMarket

/-- Why an operation on a market is refused. -/
inductive MarketError where
  /-- A result does not fit its integer width. -/
  | mathOverflow
  /-- A logarithm was asked of a number that is not positive. -/
  | mathDomain
  /-- The index names no outcome of the market. -/
  | invalidOutcomeIndex
  /-- The liquidity scale is not positive. -/
  | liquidityParameterIsZero
  /-- The market has more outcomes than a market may have. -/
  | tooManyOutcomes
  /-- The market has fewer outcomes than a market must have. -/
  | notEnoughOutcomes
  /-- The payment is not positive, or too small to mint a share. -/
  | depositIsZero
  /-- The label takes too many bytes. -/
  | invalidLabelLength
  /-- Too little time lies between the creation and the resolve time. -/
  | marketTooQuick
  /-- The resolve time has come. -/
  | marketExpired
  /-- No market has the label. -/
  | marketNotFound
  /-- The label is taken. -/
  | marketAlreadyExists
deriving DecidableEq, Repr

namespace MarketError

/-- Every cause. -/
def all : List MarketError :=
  [mathOverflow, mathDomain, invalidOutcomeIndex, liquidityParameterIsZero, tooManyOutcomes,
    notEnoughOutcomes, depositIsZero, invalidLabelLength, marketTooQuick, marketExpired,
    marketNotFound, marketAlreadyExists]

/-- The code that answers carry. -/
def code : MarketError → String
  | mathOverflow => "MathOverflow"
  | mathDomain => "MathDomain"
  | invalidOutcomeIndex => "InvalidOutcomeIndex"
  | liquidityParameterIsZero => "LiquidityParameterIsZero"
  | tooManyOutcomes => "TooManyOutcomes"
  | notEnoughOutcomes => "NotEnoughOutcomes"
  | depositIsZero => "DepositIsZero"
  | invalidLabelLength => "InvalidLabelLength"
  | marketTooQuick => "MarketTooQuick"
  | marketExpired => "MarketExpired"
  | marketNotFound => "MarketNotFound"
  | marketAlreadyExists => "MarketAlreadyExists"

/-- The sentence that answers carry beside the code. -/
def message : MarketError → String
  | mathOverflow => "Math overflow"
  | mathDomain => "Argument outside the function domain"
  | invalidOutcomeIndex => "Invalid outcome index"
  | liquidityParameterIsZero => "Liquidity parameter is zero"
  | tooManyOutcomes => "Too many outcomes"
  | notEnoughOutcomes => "Outcome count is below two"
  | depositIsZero => "Deposit is zero"
  | invalidLabelLength => "Invalid label length"
  | marketTooQuick => "Market must last at least the minimum duration"
  | marketExpired => "Market expired"
  | marketNotFound => "Market not found"
  | marketAlreadyExists => "Market already exists"

theorem mem_all (e : MarketError) : e ∈ all := by
  cases e <;> decide

end MarketError

/-! ## Chains of operations -/

@[simp] theorem ok_bind {ε α β : Type} (a : α) (f : α → Except ε β) :
    (Except.ok a >>= f) = f a := rfl

@[simp] theorem error_bind {ε α β : Type} (e : ε) (f : α → Except ε β) :
    (Except.error e >>= f) = .error e := rfl

/-- A chain answers with a value just where each of its operations does. -/
theorem bind_eq_ok_iff {ε α β : Type} {x : Except ε α} {f : α → Except ε β} {b : β} :
    (x >>= f) = .ok b ↔ ∃ a, x = .ok a ∧ f a = .ok b := by
  cases x with
  | ok a => simp
  | error e => simp

/-- A chain is refused just where its first operation is, or what follows it. -/
theorem bind_eq_error_iff {ε α β : Type} {x : Except ε α} {f : α → Except ε β} {e : ε} :
    (x >>= f) = .error e ↔ x = .error e ∨ ∃ a, x = .ok a ∧ f a = .error e := by
  cases x with
  | ok a => simp
  | error e => simp

end PredictionMarket
