import Mathlib
import PredictionMarket.Proofs.Number.Order
import PredictionMarket.Proofs.Registry.Purchase

/-!
# What a registry holds

A registry holds the markets whose creation was granted since the last reset, in the order of
these grants and on the terms that were asked for.  `granted` reads the grants off a
transcript, which is what the clients saw, and `Market.opening` reads terms and time off a
market.  `Registry.Records` says that the two agree.

Whatever the environment was when a market was created, its terms were acceptable
(`Market.Acceptable`).  A market is opened before its resolve time because the least duration
is never negative and rounding the end of it keeps the order (`Number.Floating.le_add`).  That
holds between numbers only.  No comparison with `nan` holds, so none of the checks refuses a
creation at `nan` or with `nan` for its resolve time, and no order between the two times comes
of it (`Market.openedAt_lt_iff_of_ofTerms`).
-/

namespace PredictionMarket

namespace Market

/-- The terms that a market is on, and the time when it was opened. -/
def opening (m : Market) : Terms × Number :=
  ({ label := m.label
     admin := m.admin
     outcomes := Number.ofInt m.outcomes
     scale := m.scale
     resolveAt := m.resolveAt }, m.openedAt)

/-- What every market has to meet to be opened. -/
structure Acceptable (m : Market) : Prop where
  /-- There are enough outcomes. -/
  minOutcomes_le : minOutcomes ≤ m.outcomes
  /-- There is room for the outcomes. -/
  outcomes_le : m.outcomes ≤ maxOutcomes
  /-- The scale is positive. -/
  scale_pos : 0 < m.scale
  /-- The label is short enough. -/
  utf8Size_le : m.label.utf8Size ≤ maxLabelBytes
  /-- Trading ends after the market was opened, if both times are numbers. -/
  openedAt_lt_iff : m.openedAt < m.resolveAt ↔ m.openedAt ≠ .nan ∧ m.resolveAt ≠ .nan

theorem SameTerms.opening_eq {m m' : Market} (h : SameTerms m m') : m'.opening = m.opening := by
  rw [opening, opening, h.label, h.admin, h.outcomes, h.scale, h.openedAt, h.resolveAt]

theorem SameTerms.acceptable {m m' : Market} (h : SameTerms m m') (hm : m.Acceptable) :
    m'.Acceptable where
  minOutcomes_le := h.outcomes ▸ hm.minOutcomes_le
  outcomes_le := h.outcomes ▸ hm.outcomes_le
  scale_pos := h.scale ▸ hm.scale_pos
  utf8Size_le := h.label ▸ hm.utf8Size_le
  openedAt_lt_iff := h.openedAt ▸ h.resolveAt ▸ hm.openedAt_lt_iff

/-- A count is the number that asks for it. -/
theorem ofInt_outcomeCount {x : Number} {n : Nat} (h : outcomeCount x = .ok n) :
    Number.ofInt n = x := by
  unfold outcomeCount at h
  split at h
  · exact absurd h (by simp)
  rename_i z hz
  split at h
  · exact absurd h (by simp)
  rename_i hlow
  split at h
  · exact absurd h (by simp)
  obtain rfl := Except.ok.inj h
  rw [Number.eq_ofInt_of_whole? hz, Int.toNat_of_nonneg (by omega)]

theorem opening_of_ofTerms {terms : Terms} {now minDuration : Number} {m : Market}
    (h : ofTerms terms now minDuration = .ok m) : m.opening = (terms, now) := by
  obtain ⟨n, hcount, -, rfl⟩ := ofTerms_eq_ok h
  rw [opening, ofInt_outcomeCount hcount]

/-- The checks of a label and of a duration. -/
theorem checks_of_ofTerms {terms : Terms} {now minDuration : Number} {m : Market}
    (h : ofTerms terms now minDuration = .ok m) :
    terms.label.utf8Size ≤ maxLabelBytes ∧
      ¬ terms.resolveAt ≤ now + minDuration := by
  unfold ofTerms at h
  obtain ⟨n, -, h⟩ := bind_eq_ok_iff.mp h
  split at h
  · exact absurd h (by simp)
  split at h
  · exact absurd h (by simp)
  rename_i hlabel
  split at h
  · exact absurd h (by simp)
  rename_i hduration
  exact ⟨not_lt.mp hlabel, hduration⟩

/-- At the time of its opening a market has not reached its resolve time. -/
theorem not_resolveAt_le_of_ofTerms {terms : Terms} {now : Number} {minDuration : Nat}
    {m : Market} (h : ofTerms terms now (Number.ofInt minDuration) = .ok m)
    (hnow : now.Floating) : ¬ m.resolveAt ≤ now := by
  have hresolve : m.resolveAt = terms.resolveAt :=
    congrArg (fun opening => opening.1.resolveAt) (opening_of_ofTerms h)
  rw [hresolve]
  intro hlate
  have hnan : now ≠ .nan := Number.ne_nan_of_le hlate
  exact (checks_of_ofTerms h).2 (Number.le_trans hlate (hnow.le_add hnan minDuration))

/-- A market that is opened is opened before its resolve time, if both times are numbers. -/
theorem openedAt_lt_iff_of_ofTerms {terms : Terms} {now : Number} {minDuration : Nat}
    {m : Market} (h : ofTerms terms now (Number.ofInt minDuration) = .ok m)
    (hnow : now.Floating) :
    m.openedAt < m.resolveAt ↔ m.openedAt ≠ .nan ∧ m.resolveAt ≠ .nan := by
  have hopened : m.openedAt = now := congrArg Prod.snd (opening_of_ofTerms h)
  rw [hopened]
  constructor
  · exact Number.ne_nan_of_lt
  · rintro ⟨hstart, hend⟩
    exact Number.lt_of_not_le (not_resolveAt_le_of_ofTerms h hnow) hstart hend

theorem acceptable_of_ofTerms {terms : Terms} {now : Number} {minDuration : Nat} {m : Market}
    (h : ofTerms terms now (Number.ofInt minDuration) = .ok m) (hnow : now.Floating) :
    m.Acceptable := by
  have hlabel := (checks_of_ofTerms h).1
  have htimes := openedAt_lt_iff_of_ofTerms h hnow
  obtain ⟨n, hcount, hscale, rfl⟩ := ofTerms_eq_ok h
  obtain ⟨hlow, hhigh⟩ := outcomeCount_bounds hcount
  exact ⟨hlow, hhigh, hscale, hlabel, htimes⟩

end Market

/-! ## Grants -/

/-- The grants since the last reset, after one more answer. -/
def noted (grants : List (Terms × Number)) : Command × Answer → List (Terms × Number)
  | (.create terms now, .market _) => grants ++ [(terms, now)]
  | (.reset, _) => []
  | _ => grants

/-- The creations that a transcript grants after its last reset, each with its time. -/
def granted (transcript : List (Command × Answer)) : List (Terms × Number) :=
  transcript.foldl noted []

namespace Registry

/-- The registry holds a market for every grant, in the order of the grants. -/
structure Records (r : Registry) (grants : List (Terms × Number)) : Prop where
  /-- No label stands twice. -/
  nodup : r.labels.Nodup
  /-- Every market stands under its own label. -/
  filed : r.Filed
  /-- The markets are on the terms that were asked for. -/
  openings : r.markets.map Market.opening = grants

theorem records_empty : empty.Records [] := ⟨List.nodup_nil, filed_empty, rfl⟩

/-- A trade changes no terms. -/
theorem openings_replace {r : Registry} {label : Text} {m m' : Market}
    (hfind : r.find? label = some m) (h : Market.SameTerms m m') :
    (r.replace label m').markets.map Market.opening = r.markets.map Market.opening := by
  obtain ⟨before, after, hbefore, hafter, -⟩ := entries_replace hfind m'
  rw [markets, markets, hafter, hbefore]
  simp [h.opening_eq]

end Registry

/-- Only a creation that is answered with a market is noted, and only a reset is a new start. -/
theorem noted_of_nothing {command : Command} {answer : Answer} (hreset : command.isReset = false)
    (hcreate : ∀ terms now m, command = .create terms now → answer ≠ .market m)
    (grants : List (Terms × Number)) : noted grants (command, answer) = grants := by
  unfold noted
  split
  · rename_i terms now m heq
    obtain ⟨rfl, rfl⟩ := Prod.mk.inj heq
    exact absurd rfl (hcreate terms now m rfl)
  · rename_i heq
    obtain ⟨rfl, -⟩ := Prod.mk.inj heq
    exact absurd hreset (by decide)
  · rfl

/-- Grants stay noted until the next reset. -/
theorem isPrefix_noted {entry : Command × Answer} (h : entry.1.isReset = false)
    (grants : List (Terms × Number)) : grants <+: noted grants entry := by
  unfold noted
  split
  · exact List.prefix_append _ _
  · exact absurd h (by simp [Command.isReset])
  · exact List.prefix_rfl

theorem isPrefix_foldl_noted {transcript : List (Command × Answer)}
    (h : ∀ entry ∈ transcript, entry.1.isReset = false) (grants : List (Terms × Number)) :
    grants <+: transcript.foldl noted grants := by
  induction transcript generalizing grants with
  | nil => exact List.prefix_rfl
  | cons entry transcript ih =>
    rw [List.forall_mem_cons] at h
    exact (isPrefix_noted h.1 grants).trans (ih h.2 _)

/-! ## The invariant -/

theorem Change.records {minDuration : Nat} {r r' : Registry} {command : Command}
    {answer : Answer} (h : Change minDuration r command answer r') {grants : List (Terms × Number)}
    (hr : r.Records grants) : r'.Records (noted grants (command, answer)) := by
  refine ⟨h.nodup_labels hr.nodup, h.filed hr.filed, ?_⟩
  cases h with
  | nothing hreset hcreate => rw [noted_of_nothing hreset hcreate, hr.openings]
  | opening hfree hopen =>
    rw [Registry.markets, Registry.append, List.map_append, List.map_append]
    show r.markets.map Market.opening ++ [Market.opening _] = grants ++ [_]
    rw [hr.openings, Market.opening_of_ofTerms hopen]
  | trade hopen hbuy =>
    have hfind := (Registry.openAt_eq_ok_iff.mp hopen).1
    exact (Registry.openings_replace hfind (Market.SameTerms.buy (.refl _) hbuy)).trans
      hr.openings
  | clearing => rfl

/-- A registry is left with acceptable markets if it had no other and the time is a
floating-point number. -/
theorem Change.acceptable {minDuration : Nat} {r r' : Registry} {command : Command}
    {answer : Answer} (h : Change minDuration r command answer r')
    (htime : ∀ terms now, command = .create terms now → now.Floating)
    (hr : ∀ m ∈ r.markets, m.Acceptable) : ∀ m ∈ r'.markets, m.Acceptable := by
  cases h with
  | nothing => exact hr
  | @opening terms now m hfree hopen =>
    exact Registry.forall_mem_markets_append hr _
      (Market.acceptable_of_ofTerms hopen (htime terms now rfl))
  | @trade label i payment now m after shares hopen hbuy =>
    have hm := hr m (Registry.mem_markets_of_find? (Registry.openAt_eq_ok_iff.mp hopen).1)
    exact Registry.forall_mem_markets_replace hr _
      ((Market.SameTerms.buy (.refl m) hbuy).acceptable hm)
  | clearing => simp [Registry.markets, Registry.empty]

namespace Session

open Registry (leastScale)

theorem records_run {s : Session} {grants : List (Terms × Number)} (h : s.registry.Records grants)
    (commands : List Command) :
    (s.run commands).2.registry.Records ((s.transcript commands).foldl noted grants) := by
  induction commands generalizing s grants with
  | nil => exact h
  | cons command commands ih => exact ih ((s.change_step command).records h)

/-- A creation under a label that is taken is refused. -/
theorem step_create_of_mem {s : Session} {terms : Terms} (h : terms.label ∈ s.registry.labels)
    (now : Number) : s.step (.create terms now) = (.refused .marketAlreadyExists, s) := by
  obtain ⟨m, hfind⟩ := Option.isSome_iff_exists.mp (Registry.find?_isSome_iff.mpr h)
  unfold step Registry.create
  simp only [hfind]
  rfl

/-- After any sequence of commands, at any floating-point times and under environments that
change as they like, the registry holds the markets whose creation has been granted since the
last reset, in the order of the grants, each under its own label and on the terms that were
asked for.  The terms are acceptable, and a market was opened before its resolve time just
where neither time is `nan`.  Markets stay in their places until the next reset, and a label
that is taken stays so. -/
theorem registry_records_grants (env : Environment) {commands : List Command}
    (htimes : ∀ terms now, Command.create terms now ∈ commands → now.Floating) :
    let s := ((start env).run commands).2
    let grants := granted ((start env).transcript commands)
    s.registry.Records grants ∧
    (s.step .list).1 = .labels (grants.map fun grant => grant.1.label) ∧
    (∀ m ∈ s.registry.markets, m.Acceptable) ∧
    (∀ more, (∀ command ∈ more, command.isReset = false) →
      s.registry.markets.map Market.opening <+:
        (s.run more).2.registry.markets.map Market.opening) ∧
    ∀ terms now, terms.label ∈ s.registry.labels →
      s.step (.create terms now) = (.refused .marketAlreadyExists, s) := by
  intro s grants
  have hrecords : s.registry.Records grants := records_run Registry.records_empty commands
  refine ⟨hrecords, ?_, ?_, ?_, fun terms now hmem => step_create_of_mem hmem now⟩
  · rw [← hrecords.openings, List.map_map]
    rfl
  · refine run_induction (P := fun r => ∀ m ∈ r.markets, m.Acceptable) ?_ ?_
    · intro minDuration r command answer r' hmem hr hchange
      refine hchange.acceptable ?_ hr
      rintro terms now rfl
      exact htimes terms now hmem
    · simp [start, Registry.markets, Registry.empty]
  · intro more hmore
    rw [hrecords.openings, (records_run hrecords more).openings]
    refine isPrefix_foldl_noted ?_ grants
    intro entry hentry
    exact hmore entry.1 (List.of_mem_zip hentry).1

/-- A market that is opened once, traded, and not opened again. -/
theorem registry_records_grants_least :
    let commands : List Command := [.create leastScale 0,
      .purchase leastScale.label 0 1 1, .create leastScale 2]
    let s := ((start Environment.empty).run commands).2
    (∀ terms now, Command.create terms now ∈ commands → now.Floating) ∧
      s.registry.Records [(leastScale, 0)] ∧ (∀ m ∈ s.registry.markets, m.Acceptable) ∧
      s.step (.create leastScale 3) = (.refused .marketAlreadyExists, s) := by
  intro commands s
  have htimes : ∀ terms now, Command.create terms now ∈ commands → now.Floating := by
    intro terms now hmem
    have hcases : terms = leastScale ∧ now = 0 ∨ terms = leastScale ∧ now = 2 := by
      simpa [commands] using hmem
    rcases hcases with ⟨-, rfl⟩ | ⟨-, rfl⟩
    · decide +kernel
    · decide +kernel
  have hgrants : granted ((start Environment.empty).transcript commands) = [(leastScale, 0)] := by
    decide +kernel
  obtain ⟨hrecords, -, hacceptable, -, htaken⟩ :=
    registry_records_grants Environment.empty htimes
  rw [hgrants] at hrecords
  have hmem : leastScale.label ∈ s.registry.labels := by decide +kernel
  exact ⟨htimes, hrecords, hacceptable, htaken leastScale 3 hmem⟩

/-- Terms that give no number for the resolve time. -/
def unending : Terms := { leastScale with resolveAt := .nan }

/-- A market whose resolve time is no number is registered, and its opening does not come
before that time. -/
theorem registered_unending :
    let s := ((start Environment.empty).run [.create unending 0]).2
    s.registry.markets.map (fun m => (m.openedAt, m.resolveAt)) = [(0, .nan)] ∧
      ¬ ∀ m ∈ s.registry.markets, m.openedAt < m.resolveAt := by
  decide +kernel

end Session

end PredictionMarket
