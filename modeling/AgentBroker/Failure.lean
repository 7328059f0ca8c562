import AgentBroker.Config.Problem
import AgentBroker.Description.Misfit
import AgentBroker.Handshake.Error
import AgentBroker.Message.Notice
import AgentBroker.Negotiation.Basic

/-!
# Failures

All that can go wrong with a request, and which of it the agent that made the request is told.
-/

namespace AgentBroker

inductive Failure where
  | misfit (m : Misfit)
  /-- The destination of a message is not connected. -/
  | unreachable (conversationId destination : String)
  /-- The negotiation message with the number `msgId` broke a rule. -/
  | breach (b : Breach) (msgId : UInt32)
  | wire (e : WireError)
  | handshake (e : HandshakeError)
  | stopped
  | config (p : ConfigProblem)
  | io
  deriving DecidableEq, Repr

namespace Failure

/-- The name of a failure in reports, behind it that of its cause. -/
def kind : Failure → String
  | misfit m => "Schema/" ++ m.kind
  | unreachable .. => "Routing"
  | breach b _ => "Protocol/" ++ b.kind
  | wire e => "Codec/" ++ e.kind
  | handshake e => "Handshake/" ++ e.kind
  | stopped => "Scheduler/Stopped"
  | config p => "Config/" ++ p.kind
  | io => "Io"

def isForeign : Failure → Bool
  | wire e => e.isForeign
  | handshake e => e.isForeign
  | config p => p.isForeign
  | io => true
  | _ => false

def message : Failure → String
  | misfit m => "Invalid instance or query: " ++ m.message
  | unreachable conversationId destination =>
    "Destination '" ++ destination ++ "' of conversation '" ++ conversationId ++
      "' is not connected"
  | breach b msgId => "Protocol error on message " ++ toString msgId ++ ": " ++ b.message
  | wire e => "Codec error: " ++ e.message
  | handshake e => "Handshake error: " ++ e.message
  | stopped => "Scheduler error: Scheduler has stopped"
  | config p => "Configuration error: " ++ p.message
  | io => "I/O error"

def isRouting : Failure → Bool
  | unreachable .. => true
  | _ => false

def isProtocol : Failure → Bool
  | breach .. => true
  | _ => false

/-- What the agent is told when `operation` fails, if the failure concerns it. -/
def notice? (operation : Operation) : Failure → Option Notice
  | misfit _ => some (.ofNews (.error ⟨operation, none, none⟩))
  | unreachable conversationId destination =>
    some (.ofNews (.undeliverable conversationId destination))
  | breach b msgId => some (.ofNews (.error ⟨.sendMessage, some b.conversationId, some msgId⟩))
  | _ => none

end Failure

end AgentBroker
