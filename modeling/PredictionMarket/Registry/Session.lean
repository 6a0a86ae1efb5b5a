import PredictionMarket.Registry.Basic
import PredictionMarket.Settings

/-!
# Sessions

A session is a sequence of commands to a registry, under an environment that
commands may change as well.  `Session.step` answers one command and
`Session.run` a sequence of them, each answer as it stands when it is given.

A market that `create` or `get` hands out is the registered market itself, so
whoever holds it sees every later trade.  `Session.report` tells the answers as
they read when the session is over: a market then shows all trades up to the next
reset, which parts it from the registry.
-/

namespace PredictionMarket

/-- A command to a registry. -/
inductive Command where
  /-- Opens a market. -/
  | create (terms : Terms) (now : Number)
  /-- Shows the market with a label. -/
  | get (label : Text)
  /-- Lists the labels. -/
  | list
  /-- Shows the snapshot of the market with a label. -/
  | snapshot (label : Text)
  /-- Previews a purchase. -/
  | quote (label : Text) (outcome : Number) (payment : Int) (now : Number)
  /-- Makes a purchase. -/
  | purchase (label : Text) (outcome : Number) (payment : Int) (now : Number)
  /-- Removes all markets. -/
  | reset
  /-- Replaces the environment. -/
  | setEnvironment (env : Environment)

/-- What a command is answered. -/
inductive Answer where
  /-- A market. -/
  | market (m : Market)
  /-- The labels of the markets. -/
  | labels (ls : List Text)
  /-- A snapshot. -/
  | snapshot (s : Market.Snapshot)
  /-- The preview of a purchase. -/
  | quote (q : Market.Quote)
  /-- What a buyer is told. -/
  | receipt (r : Receipt)
  /-- The command is done and there is nothing to tell. -/
  | done
  /-- The command is refused. -/
  | refused (e : MarketError)
deriving DecidableEq, Repr

/-- The answer that a result makes. -/
def Answer.ofResult {α : Type} (make : α → Answer) : Except MarketError α → Answer
  | .ok a => make a
  | .error e => refused e

/-- The answer as it reads later, when the markets registered are those in `last`. -/
def Answer.readAt (last : Registry) : Answer → Answer
  | market m => market ((last.find? m.label).getD m)
  | answer => answer

/-- The command removes all markets. -/
def Command.isReset : Command → Bool
  | reset => true
  | _ => false

/-- The state that a session changes. -/
structure Session where
  /-- The environment. -/
  environment : Environment
  /-- The markets. -/
  registry : Registry

namespace Session

/-- The session without a market under an environment. -/
def start (env : Environment) : Session := ⟨env, Registry.empty⟩

/-- Answers a command. -/
def step (s : Session) : Command → Answer × Session
  | .create terms now =>
    let least := (Settings.ofEnvironment s.environment).minDuration
    let (result, registry) := s.registry.create (Number.ofInt least) terms now
    (Answer.ofResult .market result, { s with registry := registry })
  | .get label => (Answer.ofResult .market (s.registry.get label), s)
  | .list => (.labels (s.registry.markets.map Market.label), s)
  | .snapshot label => (Answer.ofResult .snapshot (s.registry.snapshot label), s)
  | .quote label i payment now =>
    (Answer.ofResult .quote (s.registry.quote label i payment now), s)
  | .purchase label i payment now =>
    let (result, registry) := s.registry.purchase label i payment now
    (Answer.ofResult .receipt result, { s with registry := registry })
  | .reset => (.done, { s with registry := Registry.empty })
  | .setEnvironment env => (.done, { s with environment := env })

/-- Answers a sequence of commands. -/
def run (s : Session) : List Command → List Answer × Session
  | [] => ([], s)
  | command :: commands =>
    let (answer, s) := s.step command
    let (answers, s) := run s commands
    (answer :: answers, s)

/-- Answers a sequence of commands, and tells the answers as they read when the
session is over.  Beside them stand the markets that were registered until the
next reset. -/
def reportWithLast (s : Session) : List Command → List Answer × Registry
  | [] => ([], s.registry)
  | command :: commands =>
    let (answer, after) := s.step command
    let (answers, last) := reportWithLast after commands
    (answer.readAt last :: answers, if command.isReset then s.registry else last)

/-- Answers a sequence of commands, and tells the answers as they read when the
session is over. -/
def report (s : Session) (commands : List Command) : List Answer :=
  (s.reportWithLast commands).1

theorem length_reportWithLast (s : Session) (commands : List Command) :
    (s.reportWithLast commands).1.length = commands.length := by
  induction commands generalizing s with
  | nil => rfl
  | cons command commands ih =>
    rw [reportWithLast, List.length_cons, List.length_cons, ih]

/-- Every command is answered. -/
theorem length_report (s : Session) (commands : List Command) :
    (s.report commands).length = commands.length :=
  s.length_reportWithLast commands

end Session

end PredictionMarket
