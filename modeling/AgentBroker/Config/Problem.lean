import AgentBroker.Net.Url

/-!
# Problems with settings

Why settings could not be loaded or used, with the rule for agent ids.
-/

namespace AgentBroker

def isAgentIdChar (c : Char) : Bool := c.isAlphanum || c ∈ ['.', '_', ':', '+', '/', '=', '-']

/-- An agent id has between 1 and 256 characters, all of them ASCII letters, digits or one of
`._:+/=-`. -/
def isAgentId (s : String) : Bool :=
  let cs := s.toList
  cs.length ≠ 0 ∧ cs.length ≤ 256 ∧ cs.all isAgentIdChar

inductive UrlFlaw where
  | malformed (e : UrlError)
  | wrongScheme
  | missingHost
  | missingPort
  deriving DecidableEq, Repr

namespace UrlFlaw

def message : UrlFlaw → String
  | malformed e => e.message
  | wrongScheme => "scheme must be tcp"
  | missingHost => "missing host"
  | missingPort => "missing port"

end UrlFlaw

inductive SettingsFlaw where
  | emptyHost
  | zeroHandshakeTimeout
  | zeroMaxFrame
  | zeroIdleTimeout
  | zeroSweepInterval
  | zeroHealthPort
  /-- Host and port are no socket address. -/
  | badAddress
  deriving DecidableEq, Repr

namespace SettingsFlaw

def message : SettingsFlaw → String
  | emptyHost => "broker.host must not be empty"
  | zeroHandshakeTimeout => "broker.handshake_timeout_ms must be greater than zero"
  | zeroMaxFrame => "broker.max_frame_bytes must be greater than zero"
  | zeroIdleTimeout => "conversations.idle_timeout_secs must be greater than zero"
  | zeroSweepInterval => "conversations.sweep_interval_secs must be greater than zero"
  | zeroHealthPort => "health.port must be set when the health server is enabled"
  | badAddress => "broker address: invalid socket address syntax"

end SettingsFlaw

inductive FileFlaw where
  | missing
  | isDirectory
  /-- The path leads through something that is no directory. -/
  | throughFile
  | notText
  deriving DecidableEq, Repr

namespace FileFlaw

def message : FileFlaw → String
  | missing => "No such file or directory (os error 2)"
  | isDirectory => "Is a directory (os error 21)"
  | throughFile => "Not a directory (os error 20)"
  | notText => "stream did not contain valid UTF-8"

end FileFlaw

inductive ConfigProblem where
  | unreadable (flaw : FileFlaw)
  /-- The text is no TOML, or holds values of the wrong type. -/
  | malformed
  | unprintable
  | badAgentId (id : String)
  | badUrl (url : String) (flaw : UrlFlaw)
  | invalid (flaw : SettingsFlaw)
  deriving DecidableEq, Repr

namespace ConfigProblem

def kind : ConfigProblem → String
  | unreadable _ => "FileRead"
  | malformed => "TomlParse"
  | unprintable => "TomlRender"
  | badAgentId _ => "InvalidAgentId"
  | badUrl .. => "InvalidUrl"
  | invalid _ => "InvalidConfig"

/-- The cause lies outside, and only its kind is known. -/
def isForeign : ConfigProblem → Bool
  | unreadable _ | malformed | unprintable => true
  | _ => false

def message : ConfigProblem → String
  | unreadable flaw => "Failed to read config file: " ++ flaw.message
  | malformed => "Failed to parse TOML"
  | unprintable => "Failed to render TOML"
  | badAgentId id =>
    "Invalid agent ID format: Agent ID '" ++ id ++
      "' must match pattern [A-Za-z0-9._:+/=-]\x7b1,256\x7d"
  | badUrl url flaw => "Invalid broker URL: " ++ url ++ ": " ++ flaw.message
  | invalid flaw => "Invalid configuration: " ++ flaw.message

end ConfigProblem

def validateAgentId (s : String) : Except ConfigProblem Unit :=
  if isAgentId s then .ok () else .error (.badAgentId s)

end AgentBroker
