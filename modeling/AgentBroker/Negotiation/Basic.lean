import AgentBroker.Message.Body
import AgentBroker.Time

/-!
# Negotiations

A negotiation is opened by a call for proposals. The responder proposes or declines, then the
initiator accepts or declines. Every message carries a number above the sender's last one and names
the peer's last message as its target.
-/

namespace AgentBroker

inductive Side where
  | initiator
  | responder
  deriving DecidableEq, Repr, Inhabited

namespace Side

def label : Side → String
  | initiator => "Initiator"
  | responder => "Responder"

def other : Side → Side
  | initiator => responder
  | responder => initiator

end Side

inductive Stage where
  | called
  | proposed
  | accepted
  | declined
  deriving DecidableEq, Repr, Inhabited

namespace Stage

def label : Stage → String
  | called => "Cfp"
  | proposed => "Propose"
  | accepted => "Accepted"
  | declined => "Declined"

def isTerminal : Stage → Bool
  | accepted | declined => true
  | called | proposed => false

def next? : Stage → Side → Move → Option Stage
  | called, .responder, .propose => some proposed
  | called, .responder, .decline => some declined
  | proposed, .initiator, .accept => some accepted
  | proposed, .initiator, .decline => some declined
  | _, _, _ => none

end Stage

/-- A negotiation as one party sees it: the last move, sent or received. -/
structure Phase where
  move : Move
  sent : Bool
  deriving DecidableEq, Repr, Inhabited

inductive Breach where
  | unknownConversation (id : String)
  | conversationExists (id : String)
  | notAParticipant (id agent : String)
  | unexpectedMessage (id : String) (move : Move) (side : Side) (stage : Stage)
  | nonMonotonicMsgId (id : String) (last actual : UInt32)
  | targetMismatch (id : String) (expected actual : UInt32)
  deriving DecidableEq, Repr, Inhabited

namespace Breach

def conversationId : Breach → String
  | unknownConversation id | conversationExists id | notAParticipant id _
  | unexpectedMessage id _ _ _ | nonMonotonicMsgId id _ _ | targetMismatch id _ _ => id

def kind : Breach → String
  | unknownConversation .. => "UnknownConversation"
  | conversationExists .. => "ConversationExists"
  | notAParticipant .. => "NotAParticipant"
  | unexpectedMessage .. => "UnexpectedMessage"
  | nonMonotonicMsgId .. => "NonMonotonicMsgId"
  | targetMismatch .. => "TargetMismatch"

def message : Breach → String
  | unknownConversation id => "Unknown or finished conversation '" ++ id ++ "'"
  | conversationExists id => "Conversation '" ++ id ++ "' already exists"
  | notAParticipant id agent =>
    "Agent '" ++ agent ++ "' is not a party to conversation '" ++ id ++ "'"
  | unexpectedMessage id move side stage =>
    "Unexpected " ++ move.label ++ " from " ++ side.label ++ " in conversation '" ++ id ++
      "' at stage " ++ stage.label
  | nonMonotonicMsgId id last actual =>
    "Message id " ++ toString actual ++ " in conversation '" ++ id ++ "' does not follow " ++
      toString last
  | targetMismatch id expected actual =>
    "Target " ++ toString actual ++ " in conversation '" ++ id ++
      "' does not reference last message " ++ toString expected

end Breach

structure Negotiation where
  id : String
  initiator : String
  responder : String
  stage : Stage
  initiatorLast : UInt32
  responderLast : UInt32
  lastSender : Side
  lastActivity : Nanos
  deriving DecidableEq, Repr, Inhabited

namespace Negotiation

def start (now : Nanos) (initiator responder id : String) (msgId : UInt32) : Negotiation :=
  { id, initiator, responder, stage := .called, initiatorLast := msgId, responderLast := 0,
    lastSender := .initiator, lastActivity := now }

/-- The side of an agent. Who negotiates with itself counts as the initiator. -/
def sideOf? (n : Negotiation) (agent : String) : Option Side :=
  if agent = n.initiator then some .initiator
  else if agent = n.responder then some .responder
  else none

def party (n : Negotiation) : Side → String
  | .initiator => n.initiator
  | .responder => n.responder

def peerOf? (n : Negotiation) (agent : String) : Option String :=
  (n.sideOf? agent).map fun side => n.party side.other

def involves (n : Negotiation) (agent : String) : Bool :=
  n.initiator == agent || n.responder == agent

/-- The number of the last message that a side sent, 0 before its first. -/
def last (n : Negotiation) : Side → UInt32
  | .initiator => n.initiatorLast
  | .responder => n.responderLast

def phase (n : Negotiation) (side : Side) : Phase :=
  match n.stage with
  | .called => ⟨.call, side == .initiator⟩
  | .proposed => ⟨.propose, side == .responder⟩
  | .accepted => ⟨.accept, side == .initiator⟩
  | .declined => ⟨.decline, n.lastSender == side⟩

def record (n : Negotiation) (now : Nanos) (side : Side) (msgId : UInt32) (stage : Stage) :
    Negotiation :=
  match side with
  | .initiator => { n with stage, initiatorLast := msgId, lastSender := side, lastActivity := now }
  | .responder => { n with stage, responderLast := msgId, lastSender := side, lastActivity := now }

/-- Judges a message that is not a call: sender and receiver must be the two parties, the move must
be due, its number must rise and its target must be the peer's last message. -/
def advance (n : Negotiation) (now : Nanos) (sender receiver : String) (m : NegotiationMessage) :
    Except Breach Negotiation :=
  match n.sideOf? sender with
  | none => .error (.notAParticipant n.id sender)
  | some side =>
    if n.party side.other ≠ receiver then .error (.notAParticipant n.id sender)
    else
      match n.stage.next? side m.step.move with
      | none => .error (.unexpectedMessage n.id m.step.move side n.stage)
      | some stage =>
        if m.msgId ≤ n.last side then .error (.nonMonotonicMsgId n.id (n.last side) m.msgId)
        else if m.target ≠ n.last side.other then
          .error (.targetMismatch n.id (n.last side.other) m.target)
        else .ok (n.record now side m.msgId stage)

end Negotiation

end AgentBroker
