import Mathlib
import PredictionMarket.Proofs.Registry.Openings

/-!
# Markets do not interfere

What a client sees of a market depends on nothing that is done to other markets.  Two
sessions agree on a label if they have the same environment and the same market under it
(`Session.AgreeOn`).

* A command that concerns the label, as it names it or none, leaves two sessions that agree
  on it in agreement (`AgreeOn.step`).  If it names the label, both answer the same
  (`AgreeOn.answer_eq`).
* A command that names another label leaves a session in agreement with every other that it
  agreed with (`AgreeOn.step_other`).

A run and the same run without the commands on other labels so keep in step
(`AgreeOn.about_transcript`).  A market that a client was handed shows later trades as well,
so the same is said of the answers as they read at the end (`AgreeOn.about_report`).
-/

namespace PredictionMarket

namespace Command

/-- The command names the label. -/
def names (label : Text) (command : Command) : Bool := command.label? == some label

/-- The command names the label, or none. -/
def concerns (label : Text) (command : Command) : Bool := command.label?.all (· == label)

theorem names_iff {label : Text} {command : Command} :
    command.names label ↔ command.label? = some label := by
  simp [names]

theorem concerns_of_names {label : Text} {command : Command} (h : command.names label) :
    command.concerns label := by
  simp [concerns, names_iff.mp h]

/-- Only a command that names no label makes a difference between the two. -/
theorem concerns_eq_names {command : Command} (h : command.label? ≠ none) (label : Text) :
    command.concerns label = command.names label := by
  obtain ⟨other, hother⟩ := Option.ne_none_iff_exists'.mp h
  simp [concerns, names, hother]

theorem label?_of_concerns {label : Text} {command : Command} (h : command.concerns label)
    (hnames : ¬ command.names label) : command.label? = none := by
  by_contra hlabel
  rw [concerns_eq_names hlabel] at h
  exact hnames h

/-- A command that does not concern a label names another. -/
theorem label?_of_not_concerns {label : Text} {command : Command}
    (h : ¬ command.concerns label) : ∃ other, command.label? = some other ∧ label ≠ other := by
  unfold concerns at h
  cases hlabel : command.label? with
  | none => simp [hlabel] at h
  | some other =>
    refine ⟨other, rfl, ?_⟩
    rintro rfl
    simp [hlabel] at h

theorem isReset_of_not_concerns {label : Text} {command : Command}
    (h : ¬ command.concerns label) : command.isReset = false := by
  cases command with
  | reset => exact absurd rfl h
  | create | get | list | snapshot | quote | purchase | setEnvironment => rfl

end Command

/-- The answers to the commands that name a label. -/
def about (label : Text) (told : List (Command × Answer)) : List (Command × Answer) :=
  told.filter fun entry => entry.1.names label

theorem about_cons_of_names {label : Text} {command : Command} (h : command.names label)
    (answer : Answer) (told : List (Command × Answer)) :
    about label ((command, answer) :: told) = (command, answer) :: about label told :=
  List.filter_cons_of_pos h

theorem about_cons_of_not_names {label : Text} {command : Command} (h : ¬ command.names label)
    (answer : Answer) (told : List (Command × Answer)) :
    about label ((command, answer) :: told) = about label told :=
  List.filter_cons_of_neg h

/-- If all commands name the label, all answers are about it. -/
theorem about_zip_of_names {label : Text} {commands : List Command}
    (h : ∀ command ∈ commands, command.names label) (answers : List Answer) :
    about label (commands.zip answers) = commands.zip answers := by
  refine List.filter_eq_self.mpr fun entry hentry => ?_
  exact h entry.1 (List.of_mem_zip hentry).1

namespace Answer

theorem ofResult_ne_market {α : Type} {make : α → Answer} (hmake : ∀ a m, make a ≠ .market m)
    {result : Except MarketError α} {m : Market} : ofResult make result ≠ .market m := by
  cases result with
  | ok a => exact hmake a m
  | error e => simp [ofResult]

/-- A market with the label reads the same in registries that agree on the label. -/
theorem readAt_congr {last last' : Registry} {label : Text}
    (hlast : last'.find? label = last.find? label) {answer : Answer}
    (hanswer : ∀ m, answer = .market m → m.label = label) :
    answer.readAt last' = answer.readAt last := by
  cases answer with
  | market m => simp only [readAt, hanswer m rfl, hlast]
  | labels | snapshot | quote | receipt | done | refused => rfl

end Answer

/-! ## What depends on one market only -/

namespace Registry

variable {r r' : Registry} {label : Text}

theorem openAt_congr (h : r'.find? label = r.find? label) (now : Number) :
    r'.openAt label now = r.openAt label now := by
  simp only [openAt, get, h]

/-- A creation looks at the market under its label only. -/
theorem create_congr {terms : Terms} (h : r'.find? terms.label = r.find? terms.label)
    (minDuration now : Number) :
    (r'.create minDuration terms now).1 = (r.create minDuration terms now).1 ∧
      (r'.create minDuration terms now).2.find? terms.label =
        (r.create minDuration terms now).2.find? terms.label := by
  unfold create
  rw [h]
  cases hfind : r.find? terms.label with
  | some m => exact ⟨rfl, h⟩
  | none =>
    cases Market.ofTerms terms now minDuration with
    | error e => exact ⟨rfl, h⟩
    | ok m =>
      refine ⟨rfl, ?_⟩
      simp only [find?_append, h]

/-- A purchase looks at the market under its label only. -/
theorem purchase_congr (h : r'.find? label = r.find? label) (i : Number) (payment : Int)
    (now : Number) :
    (r'.purchase label i payment now).1 = (r.purchase label i payment now).1 ∧
      (r'.purchase label i payment now).2.find? label =
        (r.purchase label i payment now).2.find? label := by
  unfold purchase
  rw [openAt_congr h]
  cases hopen : r.openAt label now with
  | error e => exact ⟨rfl, h⟩
  | ok m =>
    have hfind := (openAt_eq_ok_iff.mp hopen).1
    have hafter (after : Market) :
        (r'.replace label after).find? label = (r.replace label after).find? label := by
      rw [find?_replace_self hfind, find?_replace_self (h.trans hfind)]
    simp only
    cases m.buy i payment with
    | mk result after =>
      cases result with
      | error e => exact ⟨rfl, hafter after⟩
      | ok shares => exact ⟨rfl, hafter after⟩

end Registry

namespace Session

/-- The sessions have the same environment, and the same market under the label. -/
structure AgreeOn (label : Text) (s s' : Session) : Prop where
  /-- The environments are the same. -/
  environment : s'.environment = s.environment
  /-- The markets under the label are the same. -/
  find? : s'.registry.find? label = s.registry.find? label

namespace AgreeOn

variable {label : Text} {s s' : Session} {command : Command}

@[refl] theorem refl (label : Text) (s : Session) : AgreeOn label s s := ⟨rfl, rfl⟩

/-- Sessions that agree on a label answer a command that names it in the same way, and agree
on the label afterwards. -/
theorem step_names (h : AgreeOn label s s') (hcommand : command.names label) :
    (s'.step command).1 = (s.step command).1 ∧
      AgreeOn label (s.step command).2 (s'.step command).2 := by
  obtain ⟨henv, hfind⟩ := h
  have hlabel := Command.names_iff.mp hcommand
  cases command with
  | create terms now =>
    obtain rfl : terms.label = label := Option.some.inj hlabel
    have hsame := Registry.create_congr hfind
    simp only [step, henv]
    exact ⟨congrArg (Answer.ofResult .market) (hsame _ _).1, rfl, (hsame _ _).2⟩
  | get named | snapshot named =>
    obtain rfl : named = label := Option.some.inj hlabel
    simp only [step, Registry.get, Registry.snapshot, hfind]
    exact ⟨trivial, henv, hfind⟩
  | quote named i payment now =>
    obtain rfl : named = label := Option.some.inj hlabel
    simp only [step, Registry.quote, Registry.openAt_congr hfind]
    exact ⟨trivial, henv, hfind⟩
  | purchase named i payment now =>
    obtain rfl : named = label := Option.some.inj hlabel
    have hsame := Registry.purchase_congr hfind i payment now
    exact ⟨congrArg (Answer.ofResult .receipt) hsame.1, henv, hsame.2⟩
  | list | reset | setEnvironment => exact absurd hlabel (by simp [Command.label?])

/-- Sessions that agree on a label agree on it after a command that concerns it. -/
theorem step_concerns (h : AgreeOn label s s') (hcommand : command.concerns label) :
    AgreeOn label (s.step command).2 (s'.step command).2 := by
  by_cases hnames : command.names label
  · exact (h.step_names hnames).2
  · have hlabel := Command.label?_of_concerns hcommand hnames
    obtain ⟨henv, hfind⟩ := h
    cases command with
    | list => exact ⟨henv, hfind⟩
    | reset => exact ⟨henv, rfl⟩
    | setEnvironment env => exact ⟨rfl, hfind⟩
    | create | get | snapshot | quote | purchase =>
      exact absurd hlabel (by simp [Command.label?])

/-- A command that names another label does not disturb the agreement. -/
theorem step_other (h : AgreeOn label s s') (hcommand : ¬ command.concerns label) :
    AgreeOn label (s.step command).2 s' := by
  obtain ⟨other, hother, hne⟩ := Command.label?_of_not_concerns hcommand
  have hfind := (s.change_step command).find?_of_ne hother hne
  refine ⟨?_, h.find?.trans hfind.symm⟩
  rw [h.environment]
  cases command with
  | setEnvironment => exact absurd hother (by simp [Command.label?])
  | create | get | list | snapshot | quote | purchase | reset => rfl

end AgreeOn

/-! ## Whole runs -/

open Registry (leastScale)

variable {label : Text} {s s' : Session}

theorem reportWithLast_cons (s : Session) (command : Command) (commands : List Command) :
    s.reportWithLast (command :: commands) =
      ((s.step command).1.readAt ((s.step command).2.reportWithLast commands).2 ::
          ((s.step command).2.reportWithLast commands).1,
        if command.isReset then s.registry
        else ((s.step command).2.reportWithLast commands).2) := rfl

/-- Two sessions that agree on a label answer all that is asked about it in the same way, and
agree on it in the end, even if only one is given the commands on other labels. -/
theorem AgreeOn.about_transcript (h : AgreeOn label s s') (commands : List Command) :
    about label (s'.transcript (commands.filter (Command.concerns label))) =
        about label (s.transcript commands) ∧
      AgreeOn label (s.run commands).2 (s'.run (commands.filter (Command.concerns label))).2 := by
  induction commands generalizing s s' with
  | nil => exact ⟨rfl, h⟩
  | cons command commands ih =>
    -- both sessions take a step, or only `s` does
    by_cases hconcerns : command.concerns label
    · obtain ⟨htold, hagree⟩ := ih (h.step_concerns hconcerns)
      rw [List.filter_cons_of_pos hconcerns]
      refine ⟨?_, hagree⟩
      simp only [transcript_cons]
      by_cases hnames : command.names label
      · rw [about_cons_of_names hnames, about_cons_of_names hnames, htold,
          (h.step_names hnames).1]
      · rw [about_cons_of_not_names hnames, about_cons_of_not_names hnames, htold]
    · obtain ⟨htold, hagree⟩ := ih (h.step_other hconcerns)
      rw [List.filter_cons_of_neg hconcerns]
      refine ⟨?_, hagree⟩
      have hnames : ¬ command.names label := mt Command.concerns_of_names hconcerns
      rw [transcript_cons, about_cons_of_not_names hnames, htold]

/-- A market that is told of in answer to a command has the label that the command names. -/
theorem label_eq_of_names (hfiled : s.registry.Filed) {command : Command}
    (hnames : command.names label) {m : Market} (hanswer : (s.step command).1 = .market m) :
    m.label = label := by
  have hlabel := Command.names_iff.mp hnames
  cases command with
  | create terms now =>
    have hchange := s.change_step (.create terms now)
    rw [hanswer] at hchange
    obtain rfl : terms.label = label := Option.some.inj hlabel
    exact congrArg (fun opening => opening.1.label) (Market.opening_of_ofTerms hchange.opened.2.1)
  | get named =>
    obtain rfl : named = label := Option.some.inj hlabel
    simp only [step, Registry.get] at hanswer
    cases hfind : s.registry.find? named with
    | none => simp [hfind, Answer.ofResult] at hanswer
    | some found =>
      obtain rfl : found = m := by simpa [hfind, Answer.ofResult] using hanswer
      exact hfiled.label_eq hfind
  | snapshot named =>
    exact absurd hanswer (Answer.ofResult_ne_market (by simp))
  | quote named i payment now =>
    exact absurd hanswer (Answer.ofResult_ne_market (by simp))
  | purchase named i payment now =>
    exact absurd hanswer (Answer.ofResult_ne_market (by simp))
  | list | reset | setEnvironment => exact absurd hlabel (by simp [Command.label?])

/-- The same is true of the answers as they read in the end. -/
theorem AgreeOn.about_report (h : AgreeOn label s s') (hfiled : s.registry.Filed)
    (commands : List Command) :
    about label ((commands.filter (Command.concerns label)).zip
        (s'.report (commands.filter (Command.concerns label)))) =
      about label (commands.zip (s.report commands)) ∧
    (s'.reportWithLast (commands.filter (Command.concerns label))).2.find? label =
      (s.reportWithLast commands).2.find? label := by
  induction commands generalizing s s' with
  | nil => exact ⟨rfl, h.find?⟩
  | cons command commands ih =>
    -- a market read at the end is looked up by its own label, so that has to be `label`
    have hfiled' := (s.change_step command).filed hfiled
    by_cases hconcerns : command.concerns label
    · obtain ⟨htold, hlast⟩ := ih (h.step_concerns hconcerns) hfiled'
      rw [List.filter_cons_of_pos hconcerns]
      refine ⟨?_, ?_⟩
      · simp only [report, reportWithLast_cons, List.zip_cons_cons]
        by_cases hnames : command.names label
        · have hanswer : ∀ m, (s.step command).1 = .market m → m.label = label :=
            fun m => label_eq_of_names hfiled hnames
          rw [about_cons_of_names hnames, about_cons_of_names hnames, (h.step_names hnames).1,
            Answer.readAt_congr hlast hanswer]
          exact congrArg _ htold
        · rw [about_cons_of_not_names hnames, about_cons_of_not_names hnames]
          exact htold
      · simp only [reportWithLast_cons]
        split
        · exact h.find?
        · exact hlast
    · obtain ⟨htold, hlast⟩ := ih (h.step_other hconcerns) hfiled'
      rw [List.filter_cons_of_neg hconcerns]
      have hnames : ¬ command.names label := mt Command.concerns_of_names hconcerns
      refine ⟨?_, ?_⟩
      · simp only [report, reportWithLast_cons, List.zip_cons_cons]
        rw [about_cons_of_not_names hnames]
        exact htold
      · have hreset : command.isReset = false := Command.isReset_of_not_concerns hconcerns
        rw [hlast, reportWithLast_cons, hreset, if_neg Bool.false_ne_true]

/-- For every environment, every sequence of commands and every label: if the commands that
name other labels are left out, the commands that name this one are answered as before, both
when they are given and as the answers read in the end, and the market under it is the same in
the end.  So clients that work on different markets, in any interleaving of their commands,
are answered as each would be alone. -/
theorem markets_are_isolated (env : Environment) (commands : List Command) (label : Text) :
    let s := start env
    let own := commands.filter (Command.concerns label)
    about label (s.transcript own) = about label (s.transcript commands) ∧
    about label (own.zip (s.report own)) = about label (commands.zip (s.report commands)) ∧
    (s.run own).2.registry.find? label = (s.run commands).2.registry.find? label ∧
    ((∀ command ∈ commands, command.label? ≠ none) →
      let alone := commands.filter (Command.names label)
      s.transcript alone = about label (s.transcript commands) ∧
      alone.zip (s.report alone) = about label (commands.zip (s.report commands))) := by
  intro s own
  obtain ⟨htold, hagree⟩ := (AgreeOn.refl label s).about_transcript commands
  obtain ⟨hread, -⟩ := (AgreeOn.refl label s).about_report Registry.filed_empty commands
  refine ⟨htold, hread, hagree.find?, ?_⟩
  intro hlabels alone
  have hown : own = alone :=
    List.filter_congr fun command hmem => Command.concerns_eq_names (hlabels command hmem) label
  have hnames : ∀ command ∈ alone, command.names label := fun command hmem =>
    (List.mem_filter.mp hmem).2
  rw [← htold, ← hread]
  change s.transcript alone = about label (s.transcript own) ∧
    alone.zip (s.report alone) = about label (own.zip (s.report own))
  rw [hown, about_zip_of_names hnames, transcript, about_zip_of_names hnames]
  exact ⟨rfl, rfl⟩

/-- Two clients, of whom one trades and one looks at what it has opened. -/
theorem markets_are_isolated_twofold :
    let other : Terms := { leastScale with label := Text.ofString "other" }
    let commands : List Command := [.create leastScale 0, .create other 0,
      .purchase leastScale.label 0 1 1, .snapshot other.label, .get other.label]
    let alone : List Command := [.create other 0, .snapshot other.label, .get other.label]
    let s := start Environment.empty
    (∀ command ∈ commands, command.label? ≠ none) ∧
      commands.filter (Command.names other.label) = alone ∧
      s.transcript alone = about other.label (s.transcript commands) ∧
      alone.zip (s.report alone) = about other.label (commands.zip (s.report commands)) := by
  intro other commands alone s
  have hlabels : ∀ command ∈ commands, command.label? ≠ none := by decide
  obtain ⟨-, -, -, halone⟩ := markets_are_isolated Environment.empty commands other.label
  have hfilter : commands.filter (Command.names other.label) = alone := rfl
  obtain ⟨htold, hread⟩ := halone hlabels
  rw [hfilter] at htold hread
  exact ⟨hlabels, hfilter, htold, hread⟩

end Session

end PredictionMarket
