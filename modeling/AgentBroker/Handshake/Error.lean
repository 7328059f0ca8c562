import AgentBroker.Frame
import AgentBroker.Time

/-!
# Why a handshake fails
-/

namespace AgentBroker

inductive HandshakeError where
  /-- The deadline has passed. -/
  | timeout (deadline : Nanos)
  | transport (e : WireError)
  | invalidAgentId (id : String)
  | wrongAnswer (id : String)
  | alreadyConnected (id : String)
  /-- The broker has said no. -/
  | refused
  /-- The worker has stopped. -/
  | stopped
  deriving DecidableEq, Repr

namespace HandshakeError

def kind : HandshakeError → String
  | timeout _ => "Timeout"
  | transport e => "Codec/" ++ e.kind
  | invalidAgentId _ => "InvalidAgentId"
  | wrongAnswer _ => "WrongAnswer"
  | alreadyConnected _ => "AlreadyConnected"
  | refused => "Refused"
  | stopped => "Scheduler/Stopped"

def isForeign : HandshakeError → Bool
  | transport e => e.isForeign
  | _ => false

def message : HandshakeError → String
  | timeout deadline => "Handshake timed out after " ++ deadline.text
  | transport e => "Handshake transport error: " ++ e.message
  | invalidAgentId id => "Invalid agent id '" ++ id ++ "'"
  | wrongAnswer id => "Wrong answer to challenge from '" ++ id ++ "'"
  | alreadyConnected id => "Agent '" ++ id ++ "' is already connected"
  | refused => "Connection refused by broker"
  | stopped => "Scheduler has stopped"

end HandshakeError

end AgentBroker
