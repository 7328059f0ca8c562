import AgentBroker.Broker.Timeline
import AgentBroker.Handshake.Error
import AgentBroker.Config.Check
import AgentBroker.Stream.Party
import AgentBroker.Wire.Handshake

/-!
# The broker's side of a handshake

The gatekeeper reads an introduction, sends a challenge and reads the answer, all within one
deadline. Then it asks the scheduler to admit the agent, and tells the agent the verdict within a
second deadline. An admission whose verdict does not get through is taken back.
-/

namespace AgentBroker

inductive GateStage where
  | introduction
  /-- The agent's id is no agent id, which it is being told. -/
  | refusal (id : String)
  | challenge (id : String)
  | answer (id : String)
  /-- The answer was wrong, which the agent is being told. -/
  | rejection (id : String)
  /-- It is the scheduler's turn. -/
  | admission (id : String)
  | verdict (id : String) (admitted : Bool)
  /-- The admission is to be taken back. -/
  | withdrawal (id : String) (cause : HandshakeError)
  | ended (result : Except HandshakeError String)

structure Gatekeeper where
  maxFrame : Nat
  /-- How long the exchange may take, and then the verdict. -/
  patience : Nanos
  phrase : String
  stage : GateStage
  deadline : Nanos

namespace Gatekeeper

def start (maxFrame : Nat) (patience : Nanos) (phrase : String) : Gatekeeper :=
  ⟨maxFrame, patience, phrase, .introduction, patience⟩

def result? (g : Gatekeeper) : Option (Except HandshakeError String) :=
  match g.stage with
  | .ended r => some r
  | _ => none

def become (g : Gatekeeper) (stage : GateStage) : Gatekeeper := { g with stage }

def fail (g : Gatekeeper) (e : HandshakeError) : Gatekeeper := g.become (.ended (.error e))

def message {α : Type} [Wire α] (g : Gatekeeper) (a : α) : Need :=
  .write (Frame.write? g.maxFrame (Wire.encode a))

def need (g : Gatekeeper) : Need :=
  match g.stage with
  | .introduction | .answer _ => .frame g.maxFrame
  | .refusal _ => g.message Challenge.failure
  | .challenge _ => g.message (Challenge.phrase g.phrase)
  | .rejection _ => g.message (Verdict.mk false)
  | .verdict _ admitted => g.message (Verdict.mk admitted)
  | .admission _ | .withdrawal .. => .turn
  | .ended _ => .leave

def alarm? (g : Gatekeeper) : Option Nanos :=
  match g.stage with
  | .admission _ | .withdrawal .. | .ended _ => none
  | _ => some g.deadline

def receive (g : Gatekeeper) (frame : Bytes) : Gatekeeper :=
  match g.stage with
  | .introduction =>
    match (Wire.decode? frame : Option Introduction) with
    | none => g.fail (.transport .malformed)
    | some i =>
      if isAgentId i.publicKey then g.become (.challenge i.publicKey)
      else g.become (.refusal i.publicKey)
  | .answer id =>
    match (Wire.decode? frame : Option Answer) with
    | none => g.fail (.transport .malformed)
    | some a =>
      if a.answer = answerTo g.phrase then g.become (.admission id) else g.become (.rejection id)
  | _ => g

def wrote (g : Gatekeeper) : Gatekeeper :=
  match g.stage with
  | .refusal id => g.fail (.invalidAgentId id)
  | .challenge id => g.become (.answer id)
  | .rejection id => g.fail (.wrongAnswer id)
  | .verdict id true => g.become (.ended (.ok id))
  | .verdict id false => g.fail (.alreadyConnected id)
  | _ => g

def breakOff (g : Gatekeeper) (e : HandshakeError) : Gatekeeper :=
  match g.stage with
  | .verdict id true => g.become (.withdrawal id e)
  | .verdict id false => g.fail (.alreadyConnected id)
  | _ => g.fail e

/-- The scheduler has answered: whether the agent is admitted, none if it has stopped. -/
def decide (g : Gatekeeper) (now : Nanos) (admitted : Option Bool) : Gatekeeper :=
  match g.stage, admitted with
  | .admission id, some admitted =>
    { g with stage := .verdict id admitted, deadline := now + g.patience }
  | .admission _, none => g.fail .stopped
  | _, _ => g

/-- The scheduler has been told to end the session; `taken` is false if it has stopped. -/
def withdraw (g : Gatekeeper) (taken : Bool) : Gatekeeper :=
  match g.stage with
  | .withdrawal _ cause => g.fail (if taken then cause else .stopped)
  | _ => g

end Gatekeeper

/-- A gatekeeper at work, with its scheduler and the mailbox of the session to come. -/
structure Gate where
  keeper : Gatekeeper
  timeline : Timeline
  channel : Channel

namespace Gate

/-- The keeper goes on. A handshake that fails is counted. -/
def advance (g : Gate) (keeper : Gatekeeper) : Gate :=
  match keeper.result? with
  | some (.error _) => { g with keeper, timeline := g.timeline.count .handshakeFailed }
  | _ => { g with keeper }

def consult (g : Gate) (now : Nanos) : Gate :=
  match g.keeper.stage with
  | .admission id =>
    match g.timeline.request (.connect id g.channel) with
    | (.admitted admitted, timeline) =>
      { g with timeline }.advance (g.keeper.decide now (some admitted))
    | (_, timeline) => { g with timeline }.advance (g.keeper.decide now none)
  | .withdrawal id _ =>
    match g.timeline.enqueue (.disconnect id) with
    | (taken, timeline) => { g with timeline }.advance (g.keeper.withdraw taken)
  | _ => g

instance : Party Gate where
  need g := g.keeper.need
  alarm? g := g.keeper.alarm?
  step g now
    | .received (.ok frame) => g.advance (g.keeper.receive frame)
    | .written (.ok _) => g.advance g.keeper.wrote
    | .received (.error e) | .written (.error e) => g.advance (g.keeper.breakOff (.transport e))
    | .alarm => g.advance (g.keeper.breakOff (.timeout g.keeper.patience))
    | .turn => g.consult now

end Gate

end AgentBroker
