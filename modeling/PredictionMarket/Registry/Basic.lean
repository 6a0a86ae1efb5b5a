import PredictionMarket.Market.Snapshot
import PredictionMarket.Market.Trade

/-!
# The registry of markets

A registry keeps markets by label, in the order of their creation.  Every
operation on it answers with a result or with the cause of a refusal; `create`
and `purchase` answer with the registry afterwards as well.

Trading on a market ends at its resolve time.  A purchase books its trade before
it reports cost and prices, so a purchase whose report fails has still taken
place.
-/

namespace PredictionMarket

/-- The markets by label, the earliest first. -/
structure Registry where
  /-- The labels with their markets. -/
  entries : List (Text × Market)
deriving DecidableEq, Repr

/-- What a buyer is told about a trade. -/
structure Receipt where
  /-- The shares that the payment bought. -/
  sharesMinted : Int
  /-- The prices of the outcomes after the trade. -/
  prices : List Int
  /-- The cost of the market after the trade. -/
  cost : Int
deriving DecidableEq, Repr

namespace Registry

/-- The registry without a market. -/
def empty : Registry := ⟨[]⟩

/-- The labels, the earliest first. -/
def labels (r : Registry) : List Text := r.entries.map Prod.fst

/-- The markets, the earliest first. -/
def markets (r : Registry) : List Market := r.entries.map Prod.snd

/-- The market with a label, where there is one. -/
def find? (r : Registry) (label : Text) : Option Market := r.entries.lookup label

/-- The market with a label. -/
def get (r : Registry) (label : Text) : Except MarketError Market :=
  match r.find? label with
  | some m => .ok m
  | none => .error .marketNotFound

/-- Puts a new market behind all others. -/
def append (r : Registry) (label : Text) (m : Market) : Registry :=
  ⟨r.entries ++ [(label, m)]⟩

/-- The entries with a market in the place of the one with the label. -/
def replaceIn (label : Text) (m : Market) : List (Text × Market) → List (Text × Market)
  | [] => []
  | entry :: entries =>
    if entry.1 = label then (label, m) :: entries else entry :: replaceIn label m entries

/-- Puts a market in the place of the one with the label. -/
def replace (r : Registry) (label : Text) (m : Market) : Registry :=
  ⟨replaceIn label m r.entries⟩

@[simp] theorem labels_empty : empty.labels = [] := rfl

@[simp] theorem labels_append (r : Registry) (label : Text) (m : Market) :
    (r.append label m).labels = r.labels ++ [label] := by
  simp [append, labels]

/-- A market that takes the place of another leaves the labels as they are. -/
@[simp] theorem labels_replace (r : Registry) (label : Text) (m : Market) :
    (r.replace label m).labels = r.labels := by
  obtain ⟨entries⟩ := r
  induction entries with
  | nil => rfl
  | cons entry entries ih =>
    simp only [labels, replace, replaceIn] at ih ⊢
    split
    · rename_i hlabel
      rw [List.map_cons, List.map_cons, hlabel]
    · rw [List.map_cons, List.map_cons, ih]

/-- A label has a market just where it is one of the labels. -/
theorem find?_isSome_iff {r : Registry} {label : Text} :
    (r.find? label).isSome ↔ label ∈ r.labels := by
  rw [find?, labels, List.lookup_isSome_iff, List.mem_map]
  refine ⟨?_, ?_⟩
  · rintro ⟨entry, hmem, hlabel⟩
    exact ⟨entry, hmem, (beq_iff_eq.mp hlabel).symm⟩
  · rintro ⟨entry, hmem, rfl⟩
    exact ⟨entry, hmem, beq_self_eq_true _⟩

/-- Opens a market at the time `now` and registers it, unless the label is taken. -/
def create (r : Registry) (minDuration : Number) (terms : Terms) (now : Number) :
    Except MarketError Market × Registry :=
  match r.find? terms.label with
  | some _ => (.error .marketAlreadyExists, r)
  | none =>
    match Market.ofTerms terms now minDuration with
    | .error e => (.error e, r)
    | .ok m => (.ok m, r.append terms.label m)

/-- The snapshot of the market with a label. -/
def snapshot (r : Registry) (label : Text) : Except MarketError Market.Snapshot := do
  let m ← r.get label
  m.snapshot

/-- The market with a label, if it trades at the time `now`. -/
def openAt (r : Registry) (label : Text) (now : Number) : Except MarketError Market := do
  let m ← r.get label
  if m.resolveAt ≤ now then .error .marketExpired else .ok m

/-- Previews a purchase.  No registry is answered, as a preview changes none. -/
def quote (r : Registry) (label : Text) (i : Number) (payment : Int) (now : Number) :
    Except MarketError Market.Quote := do
  let m ← r.openAt label now
  m.quote i payment

/-- What the buyer of `shares` is told of a market after the trade. -/
def receipt (m : Market) (shares : Int) : Except MarketError Receipt := do
  let cost ← m.cost
  let prices ← m.prices
  return { sharesMinted := shares, prices := prices, cost := cost }

/-- Buys shares of an outcome of the market with a label.  The market that the
trade leaves takes the place of the one before it, whatever the answer is. -/
def purchase (r : Registry) (label : Text) (i : Number) (payment : Int) (now : Number) :
    Except MarketError Receipt × Registry :=
  match r.openAt label now with
  | .error e => (.error e, r)
  | .ok m =>
    match m.buy i payment with
    | (.error e, after) => (.error e, r.replace label after)
    | (.ok shares, after) => (receipt after shares, r.replace label after)

end Registry

end PredictionMarket
