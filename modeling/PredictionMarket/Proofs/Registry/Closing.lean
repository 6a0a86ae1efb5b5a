import Mathlib
import PredictionMarket.Proofs.Market.Refusals
import PredictionMarket.Proofs.Registry.Openings

/-!
# The end of trading

Trading on a market ends at its resolve time, and it ends for good.  An order is answered
with `MarketError.marketExpired` just where the market is registered and its resolve time has
come (`expired_iff`), as no market refuses an order for that cause itself (`Ordinary`).

From then on nothing changes the market (`Change.find?_of_closed`): an order finds it closed,
a creation finds the label taken, and other labels do not concern it.  Only the clock has to
keep going, which `Timed` asks of a sequence of commands.  At the time of its own creation a
market is still open, as it is opened before its resolve time.
-/

namespace PredictionMarket

/-- The label of the market that a command asks to trade on, and the time when it does. -/
def Command.order? : Command → Option (Text × Number)
  | create _ _ => none
  | get _ => none
  | list => none
  | snapshot _ => none
  | quote label _ _ now => some (label, now)
  | purchase label _ _ now => some (label, now)
  | reset => none
  | setEnvironment _ => none

theorem Command.time?_of_order? {command : Command} {label : Text} {now : Number}
    (h : command.order? = some (label, now)) : command.time? = some now := by
  cases command with
  | quote | purchase =>
    obtain ⟨-, rfl⟩ := Prod.mk.inj (Option.some.inj h)
    rfl
  | create | get | list | snapshot | reset | setEnvironment => exact absurd h (by simp [order?])

/-- The commands carry floating-point times that never go back, and none removes the
markets. -/
structure Timed (commands : List Command) : Prop where
  /-- The times are floating-point numbers. -/
  floating : ∀ command ∈ commands, ∀ t ∈ command.time?, t.Floating
  /-- The times never go back. -/
  ordered : commands.Pairwise fun earlier later =>
    ∀ t ∈ earlier.time?, ∀ t' ∈ later.time?, t ≤ t'
  /-- No command is a reset. -/
  isReset : ∀ command ∈ commands, command.isReset = false

theorem Timed.le {commands : List Command} (h : Timed commands) {j k : Nat} (hjk : j < k)
    {earlier later : Command} (hj : commands[j]? = some earlier)
    (hk : commands[k]? = some later) {t t' : Number} (ht : earlier.time? = some t)
    (ht' : later.time? = some t') : t ≤ t' := by
  obtain ⟨hjlt, rfl⟩ := List.getElem?_eq_some_iff.mp hj
  obtain ⟨hklt, rfl⟩ := List.getElem?_eq_some_iff.mp hk
  exact List.pairwise_iff_getElem.mp h.ordered j k hjlt hklt hjk t ht t' ht'

theorem Timed.isReset_getElem? {commands : List Command} (h : Timed commands) {k : Nat}
    {command : Command} (hk : commands[k]? = some command) : command.isReset = false :=
  h.isReset command (List.mem_of_getElem? hk)

/-! ## Orders that come too late -/

namespace Registry

theorem openAt_eq_expired_iff {r : Registry} {label : Text} {now : Number} :
    r.openAt label now = .error .marketExpired ↔
      ∃ m, r.find? label = some m ∧ m.resolveAt ≤ now := by
  unfold openAt get
  cases hfind : r.find? label with
  | none => simp
  | some m =>
    simp only [ok_bind, Option.some.injEq, exists_eq_left']
    split
    · rename_i hlate
      simp [hlate]
    · rename_i hearly
      simp [hearly]

/-- A purchase that comes too late changes nothing. -/
theorem purchase_of_expired {r : Registry} {label : Text} {now : Number}
    (h : r.openAt label now = .error .marketExpired) (i : Number) (payment : Int) :
    r.purchase label i payment now = (.error .marketExpired, r) := by
  unfold purchase
  rw [h]

theorem ordinary_receipt {m : Market} (h : m.Sound) (shares : Int) :
    Market.Ordinary (receipt m shares) := by
  refine Market.Ordinary.bind h.ordinary_cost fun cost _ => ?_
  exact Market.Ordinary.bind h.ordinary_prices fun prices _ => Market.ordinary_ok _

/-- A preview is refused as too late just where the market does not trade any more. -/
theorem quote_expired_iff {r : Registry} (hr : r.Regular) {label : Text} {i : Number}
    {payment : Int} {now : Number} :
    r.quote label i payment now = .error .marketExpired ↔
      r.openAt label now = .error .marketExpired := by
  rw [quote, bind_eq_error_iff]
  constructor
  · rintro (hopen | ⟨m, hopen, hquote⟩)
    · exact hopen
    · have hordinary := (hr.openAt hopen).regular.sound.ordinary_quote i payment
      exact absurd (hordinary _ hquote) (by decide)
  · exact .inl

/-- A purchase is refused as too late just where the market does not trade any more. -/
theorem purchase_expired_iff {r : Registry} (hr : r.Regular) {label : Text} {i : Number}
    {payment : Int} {now : Number} :
    (r.purchase label i payment now).1 = .error .marketExpired ↔
      r.openAt label now = .error .marketExpired := by
  constructor
  · intro h
    cases hopen : r.openAt label now with
    | error e =>
      simp only [purchase, hopen] at h
      rw [Except.error.inj h]
    | ok m =>
      have hm := (hr.openAt hopen).regular.sound
      rcases m.buy_refused_or_done i payment with ⟨e, hbuy⟩ | ⟨shares, after, hbuy⟩
      · rw [purchase_of_refused hopen hbuy] at h
        obtain rfl := Except.error.inj h
        have hordinary := Market.ordinary_buy m i payment
        exact absurd (hordinary _ (congrArg Prod.fst hbuy)) (by decide)
      · rw [purchase_of_buy hopen hbuy] at h
        exact absurd (ordinary_receipt (hm.buy hbuy) shares _ h) (by decide)
  · intro h
    rw [purchase_of_expired h]

end Registry

theorem Answer.ofResult_eq_refused_iff {α : Type} {make : α → Answer}
    (hmake : ∀ a e, make a ≠ .refused e) {result : Except MarketError α} {e : MarketError} :
    Answer.ofResult make result = .refused e ↔ result = .error e := by
  cases result with
  | ok a => simp [ofResult, hmake]
  | error e' => simp [ofResult]

namespace Session

/-- An order is refused as too late just where the market is registered and its resolve time
has come. -/
theorem expired_iff {s : Session} (hr : s.registry.Regular) {command : Command} {label : Text}
    {now : Number} (h : command.order? = some (label, now)) :
    (s.step command).1 = .refused .marketExpired ↔
      ∃ m, s.registry.find? label = some m ∧ m.resolveAt ≤ now := by
  rw [← Registry.openAt_eq_expired_iff]
  cases command with
  | quote label' i payment now' =>
    obtain ⟨rfl, rfl⟩ := Prod.mk.inj (Option.some.inj h)
    exact (Answer.ofResult_eq_refused_iff (by simp)).trans (Registry.quote_expired_iff hr)
  | purchase label' i payment now' =>
    obtain ⟨rfl, rfl⟩ := Prod.mk.inj (Option.some.inj h)
    exact (Answer.ofResult_eq_refused_iff (by simp)).trans (Registry.purchase_expired_iff hr)
  | create | get | list | snapshot | reset | setEnvironment =>
    exact absurd h (by simp [Command.order?])

end Session

/-! ## Closed markets -/

/-- Once its resolve time has come, a market stays as it is. -/
theorem Change.find?_of_closed {minDuration : Nat} {r r' : Registry} {command : Command}
    {answer : Answer} (h : Change minDuration r command answer r')
    (hreset : command.isReset = false) {label : Text} {m : Market}
    (hfind : r.find? label = some m) (htime : ∀ t, command.time? = some t → m.resolveAt ≤ t) :
    r'.find? label = some m := by
  cases h with
  | nothing => exact hfind
  | opening => rw [Registry.find?_append, hfind, Option.some_or]
  | @trade label' i payment now old after shares hopen hbuy =>
    have hlabel : label ≠ label' := by
      rintro rfl
      obtain ⟨hold, hearly⟩ := Registry.openAt_eq_ok_iff.mp hopen
      obtain rfl : old = m := Option.some.inj (hold.symm.trans hfind)
      exact absurd (htime now rfl) hearly
    rw [Registry.find?_replace_of_ne r hlabel, hfind]
  | clearing => exact absurd hreset (by decide)

namespace Session

open Registry (leastScale leastMarket)

variable {s : Session} {commands : List Command} {j k : Nat}

theorem before_regular (env : Environment) (commands : List Command) (k : Nat) :
    ((start env).before commands k).registry.Regular :=
  reached_regular env (commands.take k)

/-- A market whose resolve time has come is the same at every later place. -/
theorem find?_before_of_closed (h : Timed commands) (hjk : j ≤ k) (hk : k ≤ commands.length)
    {command : Command} (hj : commands[j]? = some command) {now : Number}
    (hnow : command.time? = some now) {label : Text} {m : Market}
    (hfind : (s.before commands j).registry.find? label = some m) (hlate : m.resolveAt ≤ now) :
    (s.before commands k).registry.find? label = some m := by
  refine before_induction (P := fun r => r.find? label = some m) hjk hk ?_ hfind
  intro i minDuration r later answer r' hji hi hr hchange
  -- the clock does not go back, so every order from here on comes too late as well
  refine hchange.find?_of_closed (h.isReset_getElem? hi) hr fun t ht => ?_
  rcases hji.lt_or_eq with hlt | rfl
  · exact Number.le_trans hlate (h.le hlt hj hi hnow ht)
  · obtain rfl := Option.some.inj (hj.symm.trans hi)
    exact Option.some.inj (hnow.symm.trans ht) ▸ hlate

/-- A market is open at the time of its creation, at every later place. -/
theorem exists_market_before (h : Timed commands) (hjk : j < k) (hk : k ≤ commands.length)
    {terms : Terms} {now : Number} {m : Market}
    (hj : (s.transcript commands)[j]? = some (.create terms now, .market m)) :
    ∃ m', (s.before commands k).registry.find? terms.label = some m' ∧ ¬ m'.resolveAt ≤ now := by
  obtain ⟨hcommand, hanswer⟩ := getElem?_transcript_eq_some_iff.mp hj
  refine before_induction
    (P := fun r => ∃ m', r.find? terms.label = some m' ∧ ¬ m'.resolveAt ≤ now) hjk hk ?_ ?_
  · rintro i minDuration r later answer r' - hi ⟨m', hfind, hopen⟩ hchange
    obtain ⟨after, hfind', hsame⟩ := hchange.exists_market (h.isReset_getElem? hi) hfind
    exact ⟨after, hfind', hsame.resolveAt.symm ▸ hopen⟩
  · have hchange := (s.before commands j).change_step (.create terms now)
    rw [hanswer, ← s.before_succ hcommand] at hchange
    obtain ⟨hfree, hopen, hopened⟩ := hchange.opened
    have hnow := h.floating _ (List.mem_of_getElem? hcommand) now rfl
    refine ⟨m, ?_, Market.not_resolveAt_le_of_ofTerms hopen hnow⟩
    rw [hopened, Registry.find?_append, hfree, Option.none_or, if_pos rfl]

/-- For every environment, and every sequence of commands whose times never go back and that
holds no reset:

* An order at the time of the creation of its market is not refused as too late.
* A purchase at or after the resolve time of its market changes nothing.
* After an order on a label has been refused as too late, all later orders on it are, and
  all later snapshots of it are as they would be then. -/
theorem trading_closes (env : Environment) {commands : List Command} (h : Timed commands) :
    let s := start env
    let told := s.transcript commands
    (∀ (j k : Nat) (terms : Terms) (now : Number) (m : Market) (order : Command) (answer : Answer),
      j < k → told[j]? = some (.create terms now, .market m) → told[k]? = some (order, answer) →
      order.order? = some (terms.label, now) → answer ≠ .refused .marketExpired) ∧
    (∀ (k : Nat) (label : Text) (i : Number) (payment : Int) (now : Number) (m : Market),
      commands[k]? = some (.purchase label i payment now) →
      (s.before commands k).registry.find? label = some m → m.resolveAt ≤ now →
      (s.before commands (k + 1)).registry = (s.before commands k).registry) ∧
    ∀ (j : Nat) (label : Text) (now : Number) (order : Command),
      told[j]? = some (order, .refused .marketExpired) → order.order? = some (label, now) →
      (∀ (k : Nat) (later : Command) (now' : Number) (answer : Answer), j < k →
        told[k]? = some (later, answer) → later.order? = some (label, now') →
        answer = .refused .marketExpired) ∧
      ∀ (k : Nat) (answer : Answer), j < k → told[k]? = some (.snapshot label, answer) →
        answer = ((s.before commands j).step (.snapshot label)).1 := by
  intro s told
  refine ⟨?_, ?_, ?_⟩
  · rintro j k terms now m order answer hjk hj hk horder rfl
    obtain ⟨hcommand, hanswer⟩ := getElem?_transcript_eq_some_iff.mp hk
    have hle : k ≤ commands.length := (List.getElem?_eq_some_iff.mp hcommand).1.le
    obtain ⟨m', hfind, hopen⟩ := exists_market_before h hjk hle hj
    obtain ⟨late, hlate, hclosed⟩ :=
      (expired_iff (before_regular env commands k) horder).mp hanswer
    obtain rfl : m' = late := Option.some.inj (hfind.symm.trans hlate)
    exact absurd hclosed hopen
  · intro k label i payment now m hcommand hfind hclosed
    rw [s.before_succ hcommand]
    have hexpired := Registry.openAt_eq_expired_iff.mpr ⟨m, hfind, hclosed⟩
    exact congrArg Prod.snd (Registry.purchase_of_expired hexpired i payment)
  · intro j label now order hj horder
    obtain ⟨hordered, hrefused⟩ := getElem?_transcript_eq_some_iff.mp hj
    obtain ⟨m, hfind, hclosed⟩ :=
      (expired_iff (before_regular env commands j) horder).mp hrefused
    have hstays {k : Nat} (hjk : j < k) (hk : k ≤ commands.length) :
        (s.before commands k).registry.find? label = some m :=
      find?_before_of_closed h hjk.le hk hordered (Command.time?_of_order? horder) hfind hclosed
    constructor
    · intro k later now' answer hjk hk hlater
      obtain ⟨hcommand, rfl⟩ := getElem?_transcript_eq_some_iff.mp hk
      have hle : k ≤ commands.length := (List.getElem?_eq_some_iff.mp hcommand).1.le
      have htimes : now ≤ now' := h.le hjk hordered hcommand (Command.time?_of_order? horder)
        (Command.time?_of_order? hlater)
      exact (expired_iff (before_regular env commands k) hlater).mpr
        ⟨m, hstays hjk hle, Number.le_trans hclosed htimes⟩
    · intro k answer hjk hk
      obtain ⟨hcommand, rfl⟩ := getElem?_transcript_eq_some_iff.mp hk
      have hle : k ≤ commands.length := (List.getElem?_eq_some_iff.mp hcommand).1.le
      have hsame : (s.before commands k).registry.snapshot label =
          (s.before commands j).registry.snapshot label := by
        rw [Registry.snapshot_of_find? (hstays hjk hle), Registry.snapshot_of_find? hfind]
      exact congrArg (Answer.ofResult .snapshot) hsame

/-- A preview at the time of the creation, and a preview and a purchase that come too late. -/
theorem trading_closes_least :
    let commands : List Command := [.create leastScale 0, .quote leastScale.label 0 1 0,
      .quote leastScale.label 0 1 leastScale.resolveAt,
      .purchase leastScale.label 1 1 leastScale.resolveAt, .snapshot leastScale.label]
    let s := start Environment.empty
    let told := s.transcript commands
    Timed commands ∧
      (∃ answer, told[1]? = some (.quote leastScale.label 0 1 0, answer) ∧
        answer ≠ .refused .marketExpired) ∧
      told[2]? = some (.quote leastScale.label 0 1 leastScale.resolveAt,
        .refused .marketExpired) ∧
      told[3]? = some (.purchase leastScale.label 1 1 leastScale.resolveAt,
        .refused .marketExpired) := by
  intro commands s told
  have htimed : Timed commands :=
    ⟨by decide +kernel, by decide +kernel, by decide +kernel⟩
  have hcreated : told[0]? = some (.create leastScale 0, .market leastMarket) :=
    getElem?_transcript_eq_some_iff.mpr ⟨rfl, by decide +kernel⟩
  have hexpired : told[2]? = some (.quote leastScale.label 0 1 leastScale.resolveAt,
      .refused .marketExpired) :=
    getElem?_transcript_eq_some_iff.mpr ⟨rfl, by decide +kernel⟩
  obtain ⟨hopen, -, hclosed⟩ := trading_closes Environment.empty htimed
  have hquote : told[1]? = some (.quote leastScale.label 0 1 0, _) :=
    getElem?_transcript_eq_some_iff.mpr ⟨rfl, rfl⟩
  have hpurchase : told[3]? = some (.purchase leastScale.label 1 1 leastScale.resolveAt, _) :=
    getElem?_transcript_eq_some_iff.mpr ⟨rfl, rfl⟩
  have hlate := (hclosed 2 _ _ _ hexpired rfl).1 3 _ _ _ (by decide) hpurchase rfl
  rw [hlate] at hpurchase
  exact ⟨htimed, ⟨_, hquote, hopen 0 1 _ _ _ _ _ (by decide) hcreated hquote rfl⟩, hexpired,
    hpurchase⟩

end Session

end PredictionMarket
