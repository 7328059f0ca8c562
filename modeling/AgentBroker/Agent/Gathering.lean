import AgentBroker.Agent.Handler
import AgentBroker.Agent.Local
import AgentBroker.Agent.Remote

/-!
# Agents around one broker

Agents by their names, with their handlers, around one scheduler. Between two steps of a gathering
the worker and all handlers go on until nothing is left to do. No network belongs to it: an agent
that is not in the process of the broker finds nobody.
-/

namespace AgentBroker

inductive Access where
  | inProcess (a : LocalAccess)
  | remote (a : RemoteAccess)

structure Member where
  access : Access
  handler : Handler
  /-- The mailbox that its run reads. -/
  reading? : Option Channel
  /-- How its run has ended, until somebody asks. -/
  ended? : Option (Except Failure Unit)

namespace Member

def join (access : Access) (handler : Handler) : Member := ⟨access, handler, none, none⟩

def publicKey (m : Member) : String :=
  match m.access with
  | .inProcess a => a.publicKey
  | .remote a => a.settings.publicKey

def hasRun (m : Member) : Bool := m.reading?.isSome || m.ended?.isSome

end Member

structure Gathering where
  timeline : Timeline
  /-- By name, in the order of their coming. -/
  members : List (String × Member)
  /-- How many mailboxes have been made. -/
  channels : Nat

namespace Gathering

def start (s : Settings) : Gathering := ⟨.start s, [], 0⟩

def member? (g : Gathering) (name : String) : Option Member := g.members.lookup name

def put (g : Gathering) (name : String) (m : Member) : Gathering :=
  { g with members := g.members.map fun (n, old) => (n, if n == name then m else old) }

def join (g : Gathering) (name : String) (m : Member) : Gathering :=
  { g with members := g.members.filter (·.1 != name) ++ [(name, m)] }

def handshake (g : Gathering) (name : String) (m : Member) : Except Failure Unit × Gathering :=
  match m.access with
  | .inProcess a =>
    match a.handshake g.channels g.timeline with
    | (r, a, timeline) =>
      let g := { g with timeline, channels := g.channels + 1 }
      (r, g.put name { m with access := .inProcess a })
  | .remote a =>
    match a.handshake fun _ => .error .io with
    | (r, a) => (r, g.put name { m with access := .remote a })

def send (g : Gathering) (name : String) (m : Member) (e : Envelope) :
    Except Failure Unit × Gathering :=
  match m.access with
  | .inProcess a =>
    match a.send e g.timeline with
    | (r, a, timeline) => (r, { g with timeline }.put name { m with access := .inProcess a })
  | .remote a =>
    match a.send e with
    | (r, a) => (r.map fun _ => (), g.put name { m with access := .remote a })

def run (g : Gathering) (name : String) (m : Member) : Gathering :=
  match m.access with
  | .inProcess a =>
    match a.takeInbox with
    | (.ok channel, a) => g.put name { m with access := .inProcess a, reading? := some channel }
    | (.error f, a) => g.put name { m with access := .inProcess a, ended? := some (.error f) }
  | .remote a =>
    match a.takeReader with
    | (.ok _, a) => g.put name { m with access := .remote a, ended? := some (.ok ()) }
    | (.error f, a) => g.put name { m with access := .remote a, ended? := some (.error f) }

def stop (g : Gathering) (name : String) (m : Member) : Except Failure Unit × Gathering :=
  match m.access with
  | .inProcess a =>
    match a.stop g.timeline with
    | (r, timeline) => (r, { g with timeline })
  | .remote a => (.ok (), g.put name { m with access := .remote a.stop })

def hear (g : Gathering) (name : String) (n : Notice) : Gathering :=
  match g.member? name with
  | none => g
  | some m =>
    match m.handler.hearNotice n with
    | (handler, none) => g.put name { m with handler }
    | (handler, some e) => (g.send name { m with handler } e).2

def deliver (g : Gathering) (name : String) (m : Member) : Gathering :=
  match m.reading? with
  | none => g
  | some channel =>
    match g.timeline.broker.mailboxes.take channel with
    | (notices, mailboxes) =>
      notices.foldl (hear · name)
        { g with timeline := g.timeline.mapMailboxes fun _ => mailboxes }

/-- The worker goes on, and then all members hear what has come for them. -/
def round (g : Gathering) : Gathering :=
  let g := { g with timeline := g.timeline.settle }
  g.members.foldl (fun g (name, m) => g.deliver name m) g

def isOver (g : Gathering) (channel : Channel) : Bool :=
  g.timeline.scheduler.isStopped || !g.timeline.broker.canWrite channel

def endRuns (g : Gathering) : Gathering :=
  let finish (m : Member) : Member :=
    match m.reading? with
    | some channel =>
      if g.isOver channel then { m with reading? := none, ended? := some (.ok ()) } else m
    | none => m
  { g with members := g.members.map fun (name, m) => (name, finish m) }

/-- Goes on until nothing is left to do. Handlers answer calls for proposals only, and with no calls,
so that nobody answers what comes in the second round. -/
def settle (g : Gathering) : Gathering := g.round.round.endRuns

def collect (g : Gathering) : List (String × Record) × Gathering :=
  let told := g.members.map fun (name, m) => (name, m.handler.record)
  let clear (m : Member) : Member := { m with handler := m.handler.clear }
  (told.filter fun (_, r) => !r.isEmpty,
    { g with members := g.members.map fun (name, m) => (name, clear m) })

def outcome? (g : Gathering) (name : String) : Option (Except Failure Unit) × Gathering :=
  match g.member? name with
  | none => (none, g)
  | some m => (m.ended?, g.put name { m with ended? := none })

def shutDown (g : Gathering) : Gathering :=
  { g with timeline := (g.timeline.enqueue .stop).2 }.settle

end Gathering

end AgentBroker
