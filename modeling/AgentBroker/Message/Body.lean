import AgentBroker.Query

/-!
# Message bodies

What agents say to each other: free text, or one step of a negotiation. The steps of a negotiation
are threaded by the sender's own counter and by the number of the message they reply to.
-/

namespace AgentBroker

inductive CallContent where
  | text (s : String)
  | query (q : Query)
  | nothing

inductive Proposal where
  | text (s : String)
  | offers (instances : List Instance)

inductive Step where
  | call (content : CallContent)
  | propose (proposal : Proposal)
  | accept
  | decline

inductive Move where
  | call
  | propose
  | accept
  | decline
  deriving DecidableEq, Repr, Inhabited

namespace Move

def label : Move → String
  | call => "cfp"
  | propose => "propose"
  | accept => "accept"
  | decline => "decline"

end Move

def Step.move : Step → Move
  | call _ => .call
  | propose _ => .propose
  | accept => .accept
  | decline => .decline

structure NegotiationMessage where
  /-- The sender's own counter in the conversation, 1 for its first message. -/
  msgId : UInt32
  /-- The number of the message replied to, 0 for a call that opens a conversation. -/
  target : UInt32
  step : Step

inductive Body where
  | text (s : String)
  | negotiation (m : NegotiationMessage)

end AgentBroker
