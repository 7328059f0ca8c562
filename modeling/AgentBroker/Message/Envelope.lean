import AgentBroker.Message.Body

/-!
# Envelopes

What an agent sends to the broker: a number of its own choice and at most one request.
-/

namespace AgentBroker

structure Letter where
  conversationId : String
  destination : String
  body : Body

structure Search where
  searchId : UInt32
  query : Query

inductive Request where
  | sendMessage (letter : Letter)
  | registerService (i : Instance)
  | unregisterService (i : Instance)
  | registerDescription (i : Instance)
  | unregisterDescription
  | searchAgents (s : Search)
  | searchServices (s : Search)

inductive Operation where
  | registerService
  | unregisterService
  | registerDescription
  | unregisterDescription
  | searchAgents
  | searchServices
  | sendMessage
  deriving DecidableEq, Repr, Inhabited

namespace Operation

def label : Operation → String
  | registerService => "REGISTER_SERVICE"
  | unregisterService => "UNREGISTER_SERVICE"
  | registerDescription => "REGISTER_DESCRIPTION"
  | unregisterDescription => "UNREGISTER_DESCRIPTION"
  | searchAgents => "SEARCH_AGENTS"
  | searchServices => "SEARCH_SERVICES"
  | sendMessage => "SEND_MESSAGE"

def all : List Operation :=
  [registerService, unregisterService, registerDescription, unregisterDescription, searchAgents,
    searchServices, sendMessage]

def ofLabel? (s : String) : Option Operation := all.find? (·.label == s)

end Operation

def Request.operation : Request → Operation
  | sendMessage _ => .sendMessage
  | registerService _ => .registerService
  | unregisterService _ => .unregisterService
  | registerDescription _ => .registerDescription
  | unregisterDescription => .unregisterDescription
  | searchAgents _ => .searchAgents
  | searchServices _ => .searchServices

structure Envelope where
  msgId : UInt32
  request : Option Request

namespace Envelope

def ofRequest (r : Request) : Envelope := ⟨0, some r⟩

def message (conversationId destination : String) (body : Body) : Envelope :=
  ofRequest (.sendMessage ⟨conversationId, destination, body⟩)

def negotiation (conversationId destination : String) (msgId target : UInt32) (step : Step) :
    Envelope :=
  message conversationId destination (.negotiation ⟨msgId, target, step⟩)

def operation? (e : Envelope) : Option Operation := e.request.map Request.operation

end Envelope

end AgentBroker
