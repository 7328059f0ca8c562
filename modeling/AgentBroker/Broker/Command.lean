import AgentBroker.Broker.Dispatch

/-!
# Commands

All that happens to the broker is a command. Some commands are requests, whose answer is awaited
under a ticket.
-/

namespace AgentBroker

/-- The number under which an answer is awaited. -/
abbrev Ticket := Nat

inductive Command where
  | connect (agent : String) (channel : Channel) (ticket : Ticket)
  | disconnect (agent : String)
  /-- Ends the session of the agent only if it is the one with this mailbox. -/
  | disconnectSession (agent : String) (channel : Channel)
  | envelope (agent : String) (e : Envelope)
  | send (agent : String) (n : Notice)
  | relay (receiver : String) (n : Notice) (ticket : Ticket)
  | searchAgents (q : Query) (ticket : Ticket)
  | searchServices (q : Query) (ticket : Ticket)
  | stats (ticket : Ticket)
  | sessions (ticket : Ticket)
  | expireIdle (maxIdle : Nanos)
  /-- Ends the work. -/
  | stop

inductive Reply where
  | admitted (ok : Bool)
  | relayed (ok : Bool)
  | found (agents : Except Failure (List String))
  | stats (s : BrokerStats)
  | sessions (agents : List String)
  /-- The request was never carried out. -/
  | stopped

def Command.ticket? : Command → Option Ticket
  | .connect _ _ t | .relay _ _ t | .searchAgents _ t | .searchServices _ t | .stats t
  | .sessions t => some t
  | _ => none

namespace Broker

/-- Carries out a command and gives the answer to a request. An admission that nobody awaits any
more is undone at once. A session that ends by its mailbox is looked for only while somebody can
still write to the mailbox. -/
def apply (b : Broker) (now elapsed : Nanos) (awaited : Bool) : Command → Option Reply × Broker
  | .connect agent channel _ =>
    match b.connect agent channel with
    | (admitted, b) =>
      (some (.admitted admitted), if admitted && !awaited then (b.disconnect agent).2 else b)
  | .disconnect agent => (none, (b.disconnect agent).2)
  | .disconnectSession agent channel =>
    (none, if b.canWrite channel then (b.disconnectSession agent channel).2 else b)
  | .envelope agent e =>
    (none, if b.isConnected agent then (b.dispatch now elapsed agent e).2 else b)
  | .send agent n => (none, (b.send agent n).2)
  | .relay receiver n _ =>
    match b.relay receiver n with
    | (ok, b) => (some (.relayed ok), b)
  | .searchAgents q _ =>
    match b.searchAgents q with
    | (found, b) => (some (.found found), b)
  | .searchServices q _ =>
    match b.searchServices q with
    | (found, b) => (some (.found found), b)
  | .stats _ => (some (.stats b.stats), b)
  | .sessions _ => (some (.sessions b.agents), b)
  | .expireIdle maxIdle => (none, (b.expireIdle now maxIdle).2)
  | .stop => (none, b)

end Broker

end AgentBroker
