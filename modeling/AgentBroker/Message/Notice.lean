import AgentBroker.Message.Envelope

/-!
# Notices

What the broker sends to an agent: the number of the envelope that it answers, 0 if it answers none,
and at most one piece of news.
-/

namespace AgentBroker

structure ErrorReport where
  operation : Operation
  conversationId : Option String
  msgId : Option UInt32
  deriving DecidableEq, Repr, Inhabited

structure Delivery where
  origin : String
  conversationId : String
  body : Body

inductive News where
  | error (report : ErrorReport)
  /-- A message could not reach its destination. -/
  | undeliverable (conversationId destination : String)
  | searchResult (searchId : UInt32) (agents : List String)
  | delivery (d : Delivery)

structure Notice where
  answerId : UInt32
  news : Option News

namespace Notice

def ofNews (n : News) : Notice := ⟨0, some n⟩

def answering (n : Notice) (answerId : UInt32) : Notice := { n with answerId }

def delivery (origin conversationId : String) (body : Body) : Notice :=
  ofNews (.delivery ⟨origin, conversationId, body⟩)

end Notice

end AgentBroker
