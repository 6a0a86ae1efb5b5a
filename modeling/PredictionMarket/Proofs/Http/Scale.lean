import Mathlib
import PredictionMarket.Proofs.Http.Answers
import PredictionMarket.Proofs.Registry.Openings
import PredictionMarket.Proofs.Request.Orders

/-!
# Where the scale of a market comes from

Every market that is served was asked for by one of the requests (`AskedFor`), so its scale
is that of a body or the default.  The scale of a body is an amount and fits 64 bits
(`scale_le_of_read`).  The default is whatever natural the environment names, and nobody
measures it (`defaultScale_le_iff`).  A market with a scale beyond 64 bits can be created for
that reason.
-/

namespace PredictionMarket

/-! ## The scale of a form -/

theorem Field.le_of_optionalAmount {v : Option Json} {n : Nat}
    (h : optionalAmount v = .ok (some n)) : n ≤ Width.u64.greatest := by
  cases v with
  | none => exact absurd h (by simp [optionalAmount])
  | some v =>
    simp only [optionalAmount] at h
    cases hamount : amount (some v) with
    | error faults =>
      rw [hamount] at h
      exact absurd h (by simp [Except.map])
    | ok k =>
      rw [hamount] at h
      obtain rfl : k = n := Option.some.inj (Except.ok.inj h)
      obtain ⟨t, -, htext⟩ := bind_eq_ok_iff.mp hamount
      exact (amountOfText_eq_ok_iff.mp htext).2

/-- A scale that is asked for fits 64 bits. -/
theorem CreationForm.scale_le_of_read {body : Option Json} {form : CreationForm}
    (h : read body = .ok form) {n : Nat} (hscale : form.scale = some n) :
    n ≤ Width.u64.greatest := by
  unfold read at h
  obtain ⟨fields, -, h⟩ := bind_eq_ok_iff.mp h
  simp only at h
  split at h
  · rename_i hread _
    obtain rfl := Except.ok.inj h
    exact Field.le_of_optionalAmount (hread.trans (congrArg Except.ok hscale))
  · exact absurd h (by simp)

/-- The natural that the environment names as the default scale, where it names one. -/
def Environment.scale? (env : Environment) : Option Nat :=
  (env.trimmed? "DEFAULT_LIQUIDITY_SCALE").bind Text.natural?

theorem Settings.defaultScale_eq (env : Environment) :
    (ofEnvironment env).defaultScale = (env.scale?.filter (0 < ·)).getD 1000000000 := by
  simp only [ofEnvironment, Environment.scale?, Settings.scale?]
  cases env.trimmed? "DEFAULT_LIQUIDITY_SCALE" with
  | none => rfl
  | some cs => rfl

/-- The default scale fits 64 bits unless the environment names a natural that does not. -/
theorem Settings.defaultScale_le_iff (env : Environment) :
    (ofEnvironment env).defaultScale ≤ Width.u64.greatest ↔
      ∀ n ∈ env.scale?, n ≤ Width.u64.greatest := by
  rw [defaultScale_eq]
  cases env.scale? with
  | none => simp [Width.greatest]
  | some n =>
    by_cases hpos : 0 < n
    · simp [Option.filter_some, hpos]
    · obtain rfl : n = 0 := by omega
      simp [Option.filter_some, Width.greatest]

namespace Http

/-- One of the requests asks for the market, on the terms that the market is on. -/
def AskedFor (settings : Settings) (requests : List (Number × Request)) (m : Market) : Prop :=
  ∃ now request form, (now, request) ∈ requests ∧ request.route? = some .create ∧
    CreationForm.read request.body = .ok form ∧ m.opening = (form.terms settings, now)

variable {settings : Settings} {requests : List (Number × Request)}

theorem Effect.askedFor {now : Number} {request : Request} {r r' : Registry} {due : Reply}
    (h : Effect settings now request r due r') (hmem : (now, request) ∈ requests)
    (hr : ∀ m ∈ r.markets, AskedFor settings requests m) :
    ∀ m ∈ r'.markets, AskedFor settings requests m := by
  cases h with
  | nothing => exact hr
  | creation hroute hbody hread hfree hopen =>
    exact Registry.forall_mem_markets_append hr _
      ⟨now, request, _, hmem, hroute, hread, Market.opening_of_ofTerms hopen⟩
  | trade hroute hread hopen hbuy =>
    refine Registry.forall_mem_markets_replace hr _ ?_
    have hm := hr _ (Registry.mem_markets_of_find? (Registry.openAt_eq_ok_iff.mp hopen).1)
    rw [AskedFor, (Market.SameTerms.buy (.refl _) hbuy).opening_eq]
    exact hm

theorem served_askedFor (env : Environment) (requests : List (Number × Request)) :
    ∀ m ∈ (served env requests).markets, AskedFor (Settings.ofEnvironment env) requests m :=
  serve_induction (fun hmem hr heffect => heffect.askedFor hmem hr)
    (by simp [Registry.markets, Registry.empty])

/-- Whatever the environment is and whatever requests come, every market is one that a request
asks for, on the terms of its body, and its scale is positive.  The scale fits 64 bits just
where the body names one, or the environment names no natural that does not fit. -/
theorem scale_of_served (env : Environment) {requests : List (Number × Request)} {m : Market}
    (hm : m ∈ (served env requests).markets) :
    1 ≤ m.scale ∧
      ∃ now request form, (now, request) ∈ requests ∧ request.route? = some .create ∧
        CreationForm.read request.body = .ok form ∧
        m.opening = (form.terms (Settings.ofEnvironment env), now) ∧
        (m.scale ≤ Width.u64.greatest ↔
          form.scale ≠ none ∨ ∀ n ∈ env.scale?, n ≤ Width.u64.greatest) := by
  refine ⟨(served_regular env requests m hm).regular.sound.scale_pos, ?_⟩
  obtain ⟨now, request, form, hmem, hroute, hread, hopening⟩ := served_askedFor env requests m hm
  refine ⟨now, request, form, hmem, hroute, hread, hopening, ?_⟩
  have hscale : m.scale = form.scale.getD (Settings.ofEnvironment env).defaultScale :=
    congrArg (fun opening => opening.1.scale) hopening
  rw [hscale, ← Settings.defaultScale_le_iff]
  cases hform : form.scale with
  | none => simp
  | some n => simpa using CreationForm.scale_le_of_read hread hform

/-- An environment in which the default scale is the least natural beyond 64 bits. -/
def beyond : Environment :=
  .ofEntries [("DEFAULT_LIQUIDITY_SCALE", "18446744073709551616")]

/-- A request for a market of two outcomes that names no scale. -/
def unscaled : Request :=
  posting "/api/markets" [("label", .text "m"), ("admin", .text "a"), ("numOutcomes", .ofInt 2),
    ("resolveAt", .ofInt 1000)]

theorem scale_of_served_unscaled :
    ∃ m ∈ (served Environment.empty [(0, unscaled)]).markets,
      1 ≤ m.scale ∧ m.scale ≤ Width.u64.greatest := by
  have hcreated : (served Environment.empty [(0, unscaled)]).markets ≠ [] := by decide +kernel
  obtain ⟨m, hm⟩ := List.exists_mem_of_ne_nil _ hcreated
  obtain ⟨hpos, now, request, form, -, -, -, -, hle⟩ := scale_of_served Environment.empty hm
  refine ⟨m, hm, hpos, hle.mpr (.inr ?_)⟩
  simp [Environment.scale?, Environment.trimmed?, Environment.empty]

/-- A market on a scale that does not fit 64 bits is created and shown. -/
theorem created_beyond :
    (handle (Settings.ofEnvironment beyond) 0 unscaled (served beyond [])).1.status = 201 ∧
      (served beyond [(0, unscaled)]).markets.map Market.scale = [18446744073709551616] ∧
      ¬ ∀ m ∈ (served beyond [(0, unscaled)]).markets, m.scale ≤ Width.u64.greatest := by
  decide +kernel

end Http

end PredictionMarket
