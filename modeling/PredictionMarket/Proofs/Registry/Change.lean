import Mathlib
import PredictionMarket.Proofs.Registry.Reachable

/-!
# What a command does to a registry

`Change` lists what may become of a registry when a command is answered: nothing, a new
market behind all others, a trade on the market with a label, or the removal of all markets.
`change_step` reads this off the definitions, and what every change preserves is then a case
analysis over four cases.

* Every market is reachable (`Change.regular`) and stands under its own label
  (`Change.filed`), and no label stands twice (`Change.nodup_labels`).
* A market stays on its terms until the next reset (`Change.exists_market`).
* A command that names a label leaves other labels alone (`Change.find?_of_ne`).

`transcript` sets the commands of a sequence beside their answers.  What stands at a place of
it is told by the session before that command (`getElem?_transcript_eq_some_iff`).
-/

namespace PredictionMarket

/-- The label that a command names. -/
def Command.label? : Command → Option Text
  | create terms _ => some terms.label
  | get label => some label
  | list => none
  | snapshot label => some label
  | quote label _ _ _ => some label
  | purchase label _ _ _ => some label
  | reset => none
  | setEnvironment _ => none

/-- The time that a command carries. -/
def Command.time? : Command → Option Number
  | create _ now => some now
  | get _ => none
  | list => none
  | snapshot _ => none
  | quote _ _ _ now => some now
  | purchase _ _ _ now => some now
  | reset => none
  | setEnvironment _ => none

namespace Registry

/-- Every market stands under its own label. -/
def Filed (r : Registry) : Prop := ∀ entry ∈ r.entries, entry.2.label = entry.1

theorem filed_empty : empty.Filed := by simp [Filed, empty]

theorem Filed.label_eq {r : Registry} (h : r.Filed) {label : Text} {m : Market}
    (hfind : r.find? label = some m) : m.label = label := by
  obtain ⟨before, after, hsplit, -⟩ := find?_eq_some_iff.mp hfind
  exact h (label, m) (by simp [hsplit])

theorem Filed.append {r : Registry} (h : r.Filed) {label : Text} {m : Market}
    (hm : m.label = label) : (r.append label m).Filed := by
  intro entry hentry
  rw [Registry.append, List.mem_append, List.mem_singleton] at hentry
  rcases hentry with hold | rfl
  · exact h entry hold
  · exact hm

theorem Filed.replace {r : Registry} (h : r.Filed) {label : Text} {m : Market}
    (hm : m.label = label) : (r.replace label m).Filed := by
  intro entry hentry
  rcases mem_entries_replace hentry with rfl | hold
  · exact hm
  · exact h entry hold

/-- A market that is put behind all others is found where no other was. -/
theorem find?_append (r : Registry) (label other : Text) (m : Market) :
    (r.append label m).find? other =
      (r.find? other).or (if other = label then some m else none) := by
  rw [find?, append, List.lookup_append, find?]
  congr 1
  by_cases hother : other = label
  · simp [hother]
  · simp [hother]

end Registry

/-! ## Changes -/

/-- What a command with its answer does to a registry. -/
inductive Change (minDuration : Nat) (r : Registry) : Command → Answer → Registry → Prop where
  /-- The registry stays, and no market has been opened. -/
  | nothing {command : Command} {answer : Answer} (hreset : command.isReset = false)
      (hcreate : ∀ terms now m, command = .create terms now → answer ≠ .market m) :
      Change minDuration r command answer r
  /-- A market is opened. -/
  | opening {terms : Terms} {now : Number} {m : Market} (hfree : r.find? terms.label = none)
      (hopen : Market.ofTerms terms now (Number.ofInt minDuration) = .ok m) :
      Change minDuration r (.create terms now) (.market m) (r.append terms.label m)
  /-- Shares of an outcome are sold. -/
  | trade {label : Text} {i : Number} {payment : Int} {now : Number} {m after : Market} {shares : Int}
      (hopen : r.openAt label now = .ok m) (hbuy : m.buy i payment = (.ok shares, after)) :
      Change minDuration r (.purchase label i payment now)
        (Answer.ofResult .receipt (Registry.receipt after shares)) (r.replace label after)
  /-- All markets are removed. -/
  | clearing : Change minDuration r .reset .done Registry.empty

namespace Session

/-- How long a market has to stay open at least, under the environment of the session. -/
def minDuration (s : Session) : Nat := (Settings.ofEnvironment s.environment).minDuration

theorem change_step (s : Session) (command : Command) :
    Change s.minDuration s.registry command (s.step command).1 (s.step command).2.registry := by
  cases command with
  | create terms now =>
    show Change _ _ _
      (Answer.ofResult .market (s.registry.create (Number.ofInt s.minDuration) terms now).1)
      (s.registry.create (Number.ofInt s.minDuration) terms now).2
    rcases s.registry.create_cases (Number.ofInt s.minDuration) terms now with
      ⟨e, hrefused⟩ | ⟨m, hfree, hopen, hdone⟩
    · rw [hrefused]
      exact .nothing rfl (by simp [Answer.ofResult])
    · rw [hdone]
      exact .opening hfree hopen
  | purchase label i payment now =>
    show Change _ _ _ (Answer.ofResult .receipt (s.registry.purchase label i payment now).1)
      (s.registry.purchase label i payment now).2
    rcases s.registry.purchase_cases label i payment now with
      ⟨e, hrefused⟩ | ⟨m, shares, after, hopen, hbuy, hdone⟩
    · rw [hrefused]
      exact .nothing rfl (by simp)
    · rw [hdone]
      exact .trade hopen hbuy
  | reset => exact .clearing
  | get | list | snapshot | quote | setEnvironment => exact .nothing rfl (by simp)

end Session

namespace Change

variable {minDuration : Nat} {r r' : Registry} {command : Command} {answer : Answer}

/-- A creation that is answered with a market opens it. -/
theorem opened {terms : Terms} {now : Number} {m : Market}
    (h : Change minDuration r (.create terms now) (.market m) r') :
    r.find? terms.label = none ∧ Market.ofTerms terms now (Number.ofInt minDuration) = .ok m ∧
      r' = r.append terms.label m := by
  cases h with
  | nothing hreset hcreate => exact absurd rfl (hcreate terms now m rfl)
  | opening hfree hopen => exact ⟨hfree, hopen, rfl⟩

theorem filed (h : Change minDuration r command answer r') (hr : r.Filed) : r'.Filed := by
  cases h with
  | nothing => exact hr
  | opening hfree hopen =>
    obtain ⟨n, -, -, rfl⟩ := Market.ofTerms_eq_ok hopen
    exact hr.append rfl
  | trade hopen hbuy =>
    have hfind := (Registry.openAt_eq_ok_iff.mp hopen).1
    have hsame := Market.SameTerms.buy (.refl _) hbuy
    exact hr.replace (hsame.label.trans (hr.label_eq hfind))
  | clearing => exact Registry.filed_empty

theorem nodup_labels (h : Change minDuration r command answer r') (hr : r.labels.Nodup) :
    r'.labels.Nodup := by
  cases h with
  | nothing => exact hr
  | opening hfree => exact Registry.nodup_labels_append hr hfree _
  | trade =>
    rw [Registry.labels_replace]
    exact hr
  | clearing => exact List.nodup_nil

/-- No change brings an unreachable market into the registry. -/
theorem regular (h : Change minDuration r command answer r') (hr : r.Regular) : r'.Regular := by
  cases h with
  | nothing => exact hr
  | opening hfree hopen => exact hr.append _ (.opened _ _ _ hopen)
  | trade hopen hbuy => exact hr.replace _ ((hr.openAt hopen).traded hbuy)
  | clearing => exact Registry.regular_empty

/-- A market stays on its terms. -/
theorem exists_market (h : Change minDuration r command answer r')
    (hreset : command.isReset = false) {label : Text} {m : Market}
    (hfind : r.find? label = some m) :
    ∃ m', r'.find? label = some m' ∧ Market.SameTerms m m' := by
  cases h with
  | nothing => exact ⟨m, hfind, .refl m⟩
  | opening =>
    refine ⟨m, ?_, .refl m⟩
    rw [Registry.find?_append, hfind, Option.some_or]
  | @trade label' i payment now old after shares hopen hbuy =>
    by_cases hlabel : label = label'
    · subst hlabel
      have hold := (Registry.openAt_eq_ok_iff.mp hopen).1
      obtain rfl : old = m := Option.some.inj (hold.symm.trans hfind)
      exact ⟨after, Registry.find?_replace_self hold after, Market.SameTerms.buy (.refl _) hbuy⟩
    · refine ⟨m, ?_, .refl m⟩
      rw [Registry.find?_replace_of_ne r hlabel, hfind]
  | clearing => exact absurd hreset (by decide)

/-- A command that names a label changes no market with another label. -/
theorem find?_of_ne (h : Change minDuration r command answer r') {named other : Text}
    (hnamed : command.label? = some named) (hother : other ≠ named) :
    r'.find? other = r.find? other := by
  cases h with
  | nothing => rfl
  | opening =>
    obtain rfl := Option.some.inj hnamed
    rw [Registry.find?_append, if_neg hother, Option.or_none]
  | @trade label =>
    obtain rfl : label = named := Option.some.inj hnamed
    exact Registry.find?_replace_of_ne r hother _
  | clearing => exact absurd hnamed (by simp [Command.label?])

end Change

namespace Session

/-! ## Sequences of commands -/

@[simp] theorem run_nil (s : Session) : s.run [] = ([], s) := rfl

@[simp] theorem run_cons (s : Session) (command : Command) (commands : List Command) :
    s.run (command :: commands) = ((s.step command).1 :: ((s.step command).2.run commands).1,
      ((s.step command).2.run commands).2) := rfl

theorem run_append (s : Session) (earlier later : List Command) :
    s.run (earlier ++ later) = ((s.run earlier).1 ++ ((s.run earlier).2.run later).1,
      ((s.run earlier).2.run later).2) := by
  induction earlier generalizing s with
  | nil => rfl
  | cons command earlier ih => rw [List.cons_append, run_cons, ih, run_cons, List.cons_append]

/-- What every change preserves holds after every sequence of commands. -/
theorem run_induction {P : Registry → Prop} {s : Session} {commands : List Command}
    (hstep : ∀ {minDuration r command answer r'}, command ∈ commands → P r →
      Change minDuration r command answer r' → P r')
    (h : P s.registry) : P (s.run commands).2.registry := by
  induction commands generalizing s with
  | nil => exact h
  | cons command commands ih =>
    refine ih (fun hmem => hstep (List.mem_cons_of_mem _ hmem)) ?_
    exact hstep List.mem_cons_self h (s.change_step command)

theorem reached_regular (env : Environment) (commands : List Command) :
    (reached env commands).Regular :=
  run_induction (fun _ hr hchange => hchange.regular hr) Registry.regular_empty

/-- The session before the command at a place of a sequence. -/
def before (s : Session) (commands : List Command) (k : Nat) : Session :=
  (s.run (commands.take k)).2

theorem before_succ (s : Session) {commands : List Command} {k : Nat} {command : Command}
    (h : commands[k]? = some command) :
    s.before commands (k + 1) = ((s.before commands k).step command).2 := by
  rw [before, List.take_add_one, h, run_append]
  rfl

/-- What all changes between two places preserve holds at the later one if it does at the
earlier one. -/
theorem before_induction {P : Registry → Prop} {s : Session} {commands : List Command}
    {j k : Nat} (hjk : j ≤ k) (hk : k ≤ commands.length)
    (hstep : ∀ {i minDuration r command answer r'}, j ≤ i → commands[i]? = some command → P r →
      Change minDuration r command answer r' → P r')
    (h : P (s.before commands j).registry) : P (s.before commands k).registry := by
  induction k, hjk using Nat.le_induction with
  | base => exact h
  | succ k hjk ih =>
    have hcommand : commands[k]? = some commands[k] := List.getElem?_eq_getElem hk
    rw [s.before_succ hcommand]
    exact hstep hjk hcommand (ih (Nat.le_of_succ_le hk)) (change_step _ _)

/-- The commands of a sequence, each with its answer. -/
def transcript (s : Session) (commands : List Command) : List (Command × Answer) :=
  commands.zip (s.run commands).1

@[simp] theorem transcript_nil (s : Session) : s.transcript [] = [] := rfl

@[simp] theorem transcript_cons (s : Session) (command : Command) (commands : List Command) :
    s.transcript (command :: commands) =
      (command, (s.step command).1) :: (s.step command).2.transcript commands := rfl

/-- What stands at a place of the transcript is the command there, and what the session before
it answers. -/
theorem getElem?_transcript_eq_some_iff {s : Session} {commands : List Command} {k : Nat}
    {command : Command} {answer : Answer} :
    (s.transcript commands)[k]? = some (command, answer) ↔
      commands[k]? = some command ∧ ((s.before commands k).step command).1 = answer := by
  induction commands generalizing s k with
  | nil => simp
  | cons first commands ih =>
    cases k with
    | zero =>
      rw [transcript_cons, List.getElem?_cons_zero, List.getElem?_cons_zero, Option.some.injEq,
        Prod.mk.injEq, Option.some.injEq]
      constructor
      · rintro ⟨rfl, rfl⟩
        exact ⟨rfl, rfl⟩
      · rintro ⟨rfl, rfl⟩
        exact ⟨rfl, rfl⟩
    | succ k => exact ih

end Session

end PredictionMarket
