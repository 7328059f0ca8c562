import AgentBroker.Text.Blank

/-!
# Log settings

Which events the broker logs, and how. The settings come from the variables of the environment;
unknown values fall back to the defaults.
-/

namespace AgentBroker

inductive LogLevel where
  | error
  | warn
  | info
  | debug
  | trace
  deriving DecidableEq, Repr, Inhabited

namespace LogLevel

def label : LogLevel → String
  | error => "ERROR"
  | warn => "WARN"
  | info => "INFO"
  | debug => "DEBUG"
  | trace => "TRACE"

def directiveName : LogLevel → String
  | error => "error"
  | warn => "warn"
  | info => "info"
  | debug => "debug"
  | trace => "trace"

def rank : LogLevel → Nat
  | error => 1
  | warn => 2
  | info => 3
  | debug => 4
  | trace => 5

/-- The level of a name in any case of its ASCII letters. No other character has a capital among
the letters of these names. -/
def ofName (s : String) : LogLevel :=
  match s.map Char.toUpper with
  | "ERROR" => error
  | "WARN" => warn
  | "DEBUG" => debug
  | "TRACE" => trace
  | _ => info

end LogLevel

inductive LogFormat where
  | json
  | pretty
  | compact
  deriving DecidableEq, Repr

namespace LogFormat

def ofName (s : String) : LogFormat :=
  match s.map Char.toLower with
  | "pretty" => pretty
  | "compact" => compact
  | _ => json

end LogFormat

structure LogSettings where
  level : LogLevel
  format : LogFormat
  /-- Whether spans of work are logged as well. -/
  spans : Bool
  /-- A filter that stands in for the one made from the level. -/
  filterOverride : Option String
  deriving DecidableEq, Repr

instance : Inhabited LogSettings := ⟨⟨.info, .json, false, none⟩⟩

namespace LogSettings

def sameLetters (a b : String) : Bool := a.map Char.toLower == b.map Char.toLower

/-- The settings of an environment. A filter of blanks counts as none. -/
def ofEnvironment (lookup : String → Option String) : LogSettings where
  level := ((lookup "LOG_LEVEL").map LogLevel.ofName).getD .info
  format := ((lookup "LOG_FORMAT").map LogFormat.ofName).getD .json
  spans := ((lookup "LOG_SPANS").map (sameLetters · "true")).getD false
  filterOverride := (lookup "RUST_LOG").filter fun s => !isBlankText s

def ownTarget : String := "oef_core"

/-- The filter: the broker at its level, all others at most at warnings. -/
def directives (s : LogSettings) : String :=
  match s.filterOverride with
  | some filter => filter
  | none =>
    let others := if s.level = .error then LogLevel.error else .warn
    others.directiveName ++ "," ++ ownTarget ++ "=" ++ s.level.directiveName

def withVerbosity (s : LogSettings) (times : Nat) : LogSettings :=
  match times with
  | 0 => s
  | 1 => { s with level := .debug }
  | _ => { s with level := .trace, spans := true }

end LogSettings

end AgentBroker
