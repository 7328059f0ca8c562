import AgentBroker.Broker.Mailboxes
import AgentBroker.Config.Settings
import AgentBroker.Directory
import AgentBroker.Failure
import AgentBroker.Metrics.Basic
import AgentBroker.Negotiation.Ledger

/-!
# The state of the broker

Sessions, directory and ledger, with the operations on them. An agent that loses its session loses
its directory entries and its negotiations with it, on whatever way the session ends; an agent whose
mailbox turns out to be closed loses its session on the spot.
-/

namespace AgentBroker

structure Broker where
  /-- The mailbox of every connected agent. -/
  sessions : Std.ExtTreeMap String Channel
  directory : Directory
  ledger : Ledger
  notifications : NotificationSettings
  mailboxes : Mailboxes
  metrics : Metrics

structure BrokerStats where
  sessions : Nat
  services : Nat
  descriptions : Nat
  negotiations : Nat
  deriving DecidableEq, Repr

namespace Broker

def start (notifications : NotificationSettings) : Broker :=
  ⟨∅, .empty, .empty, notifications, .empty, .empty⟩

instance : Inhabited Broker := ⟨start default⟩

def count (b : Broker) (f : Metrics → Metrics) : Broker := { b with metrics := f b.metrics }

def session? (b : Broker) (agent : String) : Option Channel := b.sessions[agent]?

def isConnected (b : Broker) (agent : String) : Bool := b.sessions.contains agent

def agents (b : Broker) : List String := b.sessions.keys

def stats (b : Broker) : BrokerStats :=
  ⟨b.sessions.size, b.directory.serviceCount, b.directory.descriptionCount, b.ledger.size⟩

def connect (b : Broker) (agent : String) (channel : Channel) : Bool × Broker :=
  if b.isConnected agent then (false, b.count .sessionRejected)
  else
    (true, { b with sessions := b.sessions.insert agent channel }.count .sessionAdmitted)

/-- Removes a session with all that belongs to its agent. -/
def drop (b : Broker) (agent : String) : Broker :=
  { b with
    sessions := b.sessions.erase agent
    directory := b.directory.removeAgent agent
    ledger := (b.ledger.removeAgent agent).2 }.count .sessionClosed

def disconnect (b : Broker) (agent : String) : Bool × Broker :=
  if b.isConnected agent then (true, b.drop agent) else (false, b)

/-- Ends the session of an agent if it is the one with this mailbox. -/
def disconnectSession (b : Broker) (agent : String) (channel : Channel) : Bool × Broker :=
  if b.session? agent = some channel then (true, b.drop agent) else (false, b)

def canWrite (b : Broker) (channel : Channel) : Bool :=
  b.mailboxes.held.contains channel || b.sessions.values.contains channel

/-- Puts a notice into the mailbox of an agent. An agent with a closed mailbox is disconnected. -/
def send (b : Broker) (agent : String) (n : Notice) : Bool × Broker :=
  match b.session? agent with
  | none => (false, b)
  | some channel =>
    match b.mailboxes.put? channel n with
    | some mailboxes => (true, { b with mailboxes })
    | none => (false, (b.disconnect agent).2)

def relay (b : Broker) (receiver : String) (n : Notice) : Bool × Broker :=
  match b.send receiver n with
  | (true, b) => (true, b.count .messageRouted)
  | (false, b) => (false, b.count .routingFailed)

def registerService (b : Broker) (agent : String) (i : Instance) : Except Failure Unit × Broker :=
  match i.validate with
  | .error m => (.error (.misfit m), b)
  | .ok _ =>
    (.ok (), { b with directory := b.directory.register agent i }.count .registration)

def unregisterService (b : Broker) (agent : String) (i : Instance) : Broker :=
  match b.directory.unregister agent i with
  | (true, directory) => { b with directory }.count .unregistration
  | (false, directory) => { b with directory }

def registerDescription (b : Broker) (agent : String) (i : Instance) :
    Except Failure Unit × Broker :=
  match i.validate with
  | .error m => (.error (.misfit m), b)
  | .ok _ =>
    (.ok (), { b with directory := b.directory.describe agent i }.count .registration)

def unregisterDescription (b : Broker) (agent : String) : Broker :=
  match b.directory.undescribe agent with
  | (true, directory) => { b with directory }.count .unregistration
  | (false, directory) => { b with directory }

def search (find : Directory → Query → List String) (b : Broker) (q : Query) :
    Except Failure (List String) × Broker :=
  match q.validate with
  | .error m => (.error (.misfit m), b)
  | .ok _ => (.ok (find b.directory q), b.count .search)

def searchAgents (b : Broker) (q : Query) : Except Failure (List String) × Broker :=
  b.search Directory.searchAgents q

def searchServices (b : Broker) (q : Query) : Except Failure (List String) × Broker :=
  b.search Directory.searchServices q

def observe (b : Broker) (now : Nanos) (sender : String) (letter : Letter) :
    Except Failure Broker :=
  match letter.body with
  | .text _ => .ok b
  | .negotiation m =>
    match b.ledger.observe now sender letter.destination letter.conversationId m with
    | .ok (_, ledger) => .ok { b with ledger }
    | .error breach => .error (.breach breach m.msgId)

/-- Relays a letter. The destination must be connected, and a negotiation message must keep the
rules, before anything is delivered. -/
def sendLetter (b : Broker) (now : Nanos) (sender : String) (letter : Letter) :
    Except Failure Unit × Broker :=
  let unreachable := Failure.unreachable letter.conversationId letter.destination
  if b.isConnected letter.destination then
    match b.observe now sender letter with
    | .error f => (.error f, b)
    | .ok b =>
      match b.relay letter.destination (.delivery sender letter.conversationId letter.body) with
      | (true, b) => (.ok (), b)
      | (false, b) => (.error unreachable, b)
  else (.error unreachable, b.count .routingFailed)

/-- Forgets the negotiations that have been idle for longer than `maxIdle`, and counts them. -/
def expireIdle (b : Broker) (now maxIdle : Nanos) : Nat × Broker :=
  let (ids, ledger) := b.ledger.expireIdle now maxIdle
  (ids.length, { b with ledger }.count (·.conversationsExpired ids.length))

end Broker

end AgentBroker
