import PredictionMarket.Number.Literal
import PredictionMarket.Text.Basic

/-!
# Settings

The settings come from an environment of named texts.  Every setting has a
default, which also stands in for a number that makes no sense.
-/

namespace PredictionMarket

/-- The texts that are set, by name. -/
def Environment : Type := String → Option String

namespace Environment

/-- The environment in which nothing is set. -/
def empty : Environment := fun _ => none

/-- The string that an environment keeps of a text.  It ends before the first NUL,
and the replacement character stands for every half of a surrogate pair. -/
def kept (t : Text) : String := String.ofList (t.legible.toList.takeWhile (· ≠ Char.ofNat 0))

/-- The environment of texts that are set one after the other, by name.  A name is
taken whole: one with a NUL in it is not the name before the NUL. -/
def ofEntries (entries : List (Text × Text)) : Environment := fun name =>
  (entries.reverse.find? fun e => e.1 = Text.ofString name).map fun e => kept e.2

/-- The text of a name, or `fallback` where the name is not set. -/
def get (env : Environment) (name fallback : String) : String := (env name).getD fallback

/-- The text of a name without blanks at its ends. -/
def trimmed? (env : Environment) (name : String) : Option (List Char) :=
  (env name).map fun s => Text.trim s.toList

end Environment

/-- The web origins from which requests are welcome. -/
inductive Origins where
  /-- Every origin. -/
  | any
  /-- One origin. -/
  | one (origin : String)
  /-- Several origins. -/
  | several (origins : List String)
deriving DecidableEq, Repr

namespace Origins

/-- The origins that a text lists between commas, where blanks and empty entries
do not count.  A text without any entry stands for itself. -/
def ofList (cs : List Char) : Origins :=
  match ((cs.splitOn ',').map Text.trim).filter (!·.isEmpty) with
  | [] => one (String.ofList cs)
  | [origin] => one (String.ofList origin)
  | origins => several (origins.map String.ofList)

/-- The origins that a trimmed text names; `true` and `*` stand for all. -/
def ofText (cs : List Char) : Origins :=
  if cs = "true".toList ∨ cs = "*".toList then any else ofList cs

end Origins

/-- The settings of the service. -/
structure Settings where
  /-- The port to listen on. -/
  port : Number
  /-- The address to listen on. -/
  host : String
  /-- The mode of operation. -/
  mode : String
  /-- The least level of what is logged. -/
  logLevel : String
  /-- The origins from which requests are welcome. -/
  origins : Origins
  /-- How long a market has to stay open at least, in seconds. -/
  minDuration : Nat
  /-- The liquidity scale of a market that asks for none. -/
  defaultScale : Nat
deriving DecidableEq, Repr

namespace Settings

/-- The least duration of a market: a number that is not negative, rounded down
to seconds, and otherwise one second. -/
def wholeSeconds (x : Number) : Nat :=
  match x with
  | .finite q => if 0 ≤ q.num then q.floor.toNat else 1
  | .infinite _ => 1
  | .nan => 1

/-- The liquidity scale that a trimmed text names: a natural in ASCII digits that
is not zero. -/
def scale? (cs : List Char) : Option Nat := (Text.natural? cs).filter (0 < ·)

/-- The settings that an environment makes. -/
def ofEnvironment (env : Environment) : Settings where
  port := Number.ofText (env.get "PORT" "3000")
  host := env.get "HOST" "0.0.0.0"
  mode := env.get "NODE_ENV" "development"
  logLevel := env.get "LOG_LEVEL" "info"
  origins := Origins.ofText ((env.trimmed? "CORS_ORIGIN").getD "http://localhost:3000".toList)
  minDuration := wholeSeconds (Number.ofText (env.get "MIN_MARKET_DURATION_SECONDS" "1"))
  defaultScale := ((env.trimmed? "DEFAULT_LIQUIDITY_SCALE").bind scale?).getD 1000000000

end Settings

end PredictionMarket
