import PredictionMarket.Proofs.Market.Run
import PredictionMarket.Proofs.Registry.Entries
import PredictionMarket.Registry.Session

/-!
# Reachable registries

Every market of a registry was opened by `create` and traded by `purchase`, so it is
reachable as a market on its own (`Registry.Regular`).  What is known of all reachable markets
is then known of all that a registry can hold.

A creation and a purchase are refused and change nothing, or they are carried out
(`create_cases` and `purchase_cases`).  That no command brings an unreachable market into the
registry is read off these two.
-/

namespace PredictionMarket

namespace Registry

/-! ## The invariant -/

/-- All markets of the registry are reachable. -/
def Regular (r : Registry) : Prop := ∀ m ∈ r.markets, m.Reachable

theorem regular_empty : empty.Regular := by
  intro m hm
  exact absurd hm (by simp [markets, empty])

theorem Regular.append {r : Registry} (h : r.Regular) (label : Text) {m : Market}
    (hm : m.Reachable) : (r.append label m).Regular :=
  forall_mem_markets_append h label hm

theorem Regular.replace {r : Registry} (h : r.Regular) (label : Text) {m : Market}
    (hm : m.Reachable) : (r.replace label m).Regular :=
  forall_mem_markets_replace h label hm

/-- A market that trades is the one with the label. -/
theorem openAt_eq_ok_iff {r : Registry} {label : Text} {now : Number} {m : Market} :
    r.openAt label now = .ok m ↔ r.find? label = some m ∧ ¬ m.resolveAt ≤ now := by
  unfold openAt get
  cases hfind : r.find? label with
  | none => simp
  | some found =>
    simp only [ok_bind]
    split
    · rename_i hlate
      constructor
      · intro h
        exact absurd h (by simp)
      · rintro ⟨hm, hearly⟩
        obtain rfl := Option.some.inj hm
        exact absurd hlate hearly
    · rename_i hearly
      constructor
      · intro h
        obtain rfl := Except.ok.inj h
        exact ⟨rfl, hearly⟩
      · rintro ⟨hm, -⟩
        rw [Option.some.inj hm]

theorem Regular.openAt {r : Registry} (h : r.Regular) {label : Text} {now : Number} {m : Market}
    (hopen : r.openAt label now = .ok m) : m.Reachable :=
  h m (mem_markets_of_find? (openAt_eq_ok_iff.mp hopen).1)

/-- A creation is refused and changes nothing, or its market is registered. -/
theorem create_cases (r : Registry) (minDuration : Number) (terms : Terms) (now : Number) :
    (∃ e, r.create minDuration terms now = (.error e, r)) ∨
      ∃ m, r.find? terms.label = none ∧ Market.ofTerms terms now minDuration = .ok m ∧
        r.create minDuration terms now = (.ok m, r.append terms.label m) := by
  unfold create
  cases hfind : r.find? terms.label with
  | some taken => exact .inl ⟨.marketAlreadyExists, rfl⟩
  | none =>
    cases hopen : Market.ofTerms terms now minDuration with
    | error e => exact .inl ⟨e, rfl⟩
    | ok m => exact .inr ⟨m, rfl, rfl, rfl⟩

/-- What a purchase does to the registry when its order is carried out. -/
theorem purchase_of_buy {r : Registry} {label : Text} {i : Number} {payment : Int} {now : Number}
    {m after : Market} {shares : Int} (hopen : r.openAt label now = .ok m)
    (hbuy : m.buy i payment = (.ok shares, after)) :
    r.purchase label i payment now = (receipt after shares, r.replace label after) := by
  unfold purchase
  rw [hopen]
  simp only [hbuy]

/-- A trade that is refused leaves its market in the registry, which is then as before. -/
theorem purchase_of_refused {r : Registry} {label : Text} {i : Number} {payment : Int}
    {now : Number} {m : Market} {e : MarketError} (hopen : r.openAt label now = .ok m)
    (hbuy : m.buy i payment = (.error e, m)) : r.purchase label i payment now = (.error e, r) := by
  unfold purchase
  rw [hopen]
  simp only [hbuy]
  rw [replace_self (openAt_eq_ok_iff.mp hopen).1]

/-- The preview of a purchase is answered by the market that trades. -/
theorem quote_eq_ok_iff {r : Registry} {label : Text} {i : Number} {payment : Int}
    {now : Number} {q : Market.Quote} :
    r.quote label i payment now = .ok q ↔
      ∃ m, r.openAt label now = .ok m ∧ m.quote i payment = .ok q := by
  rw [quote, bind_eq_ok_iff]

/-- A purchase is refused and changes nothing, or its order is carried out. -/
theorem purchase_cases (r : Registry) (label : Text) (i : Number) (payment : Int) (now : Number) :
    (∃ e, r.purchase label i payment now = (.error e, r)) ∨
      ∃ m shares after, r.openAt label now = .ok m ∧ m.buy i payment = (.ok shares, after) ∧
        r.purchase label i payment now = (receipt after shares, r.replace label after) := by
  cases hopen : r.openAt label now with
  | error e =>
    left
    refine ⟨e, ?_⟩
    unfold purchase
    rw [hopen]
  | ok m =>
    rcases m.buy_refused_or_done i payment with ⟨e, hbuy⟩ | ⟨shares, after, hbuy⟩
    · exact .inl ⟨e, purchase_of_refused hopen hbuy⟩
    · exact .inr ⟨m, shares, after, rfl, hbuy, purchase_of_buy hopen hbuy⟩

/-- A purchase is accepted where its order is carried out and can be reported. -/
theorem purchase_eq_ok_iff {r : Registry} {label : Text} {i : Number} {payment : Int} {now : Number}
    {told : Receipt} {r' : Registry} :
    r.purchase label i payment now = (.ok told, r') ↔
      ∃ m shares after, r.openAt label now = .ok m ∧ m.buy i payment = (.ok shares, after) ∧
        receipt after shares = .ok told ∧ r' = r.replace label after := by
  constructor
  · intro h
    rcases r.purchase_cases label i payment now with
      ⟨e, hrefused⟩ | ⟨m, shares, after, hopen, hbuy, hdone⟩
    · rw [hrefused] at h
      exact absurd (Prod.mk.inj h).1 (by simp)
    · rw [hdone] at h
      obtain ⟨hreceipt, hregistry⟩ := Prod.mk.inj h
      exact ⟨m, shares, after, hopen, hbuy, hreceipt, hregistry.symm⟩
  · rintro ⟨m, shares, after, hopen, hbuy, hreceipt, rfl⟩
    rw [purchase_of_buy hopen hbuy, hreceipt]

end Registry

namespace Session

/-- The registry after a sequence of commands to an empty one. -/
def reached (env : Environment) (commands : List Command) : Registry :=
  ((start env).run commands).2.registry

end Session

end PredictionMarket
