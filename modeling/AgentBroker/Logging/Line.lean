import AgentBroker.Logging.Filter
import AgentBroker.Json.Printer
import AgentBroker.Json.Record

/-!
# Lines of the log

How an event is written in each format.
-/

namespace AgentBroker.LogEvent

open Json

def toJson (e : LogEvent) : Json :=
  record [("level", .ofString e.level.label), ("fields", record [("message", .ofString e.message)]),
    ("target", .ofString e.target)]

def line (e : LogEvent) : LogFormat → String
  | .json => e.toJson.print
  | .pretty => "  " ++ e.level.label ++ " " ++ e.target ++ ": " ++ e.message
  | .compact => e.level.label ++ " " ++ e.message

end AgentBroker.LogEvent
