import AgentBroker.Broker.Scheduler

/-!
# The scheduler under a clock

Time moves only when it is told to. Between two moments the worker and the sweeper go on until
nothing is left to do.
-/

namespace AgentBroker

structure Timeline where
  scheduler : Scheduler
  sweeper : Option Sweeper
  now : Nanos

namespace Timeline

def start (s : Settings) : Timeline := ⟨.start s.notifications, Sweeper.start? s.expiry 0, 0⟩

def broker (t : Timeline) : Broker := t.scheduler.broker

def mapMailboxes (t : Timeline) (f : Mailboxes → Mailboxes) : Timeline :=
  { t with scheduler.broker.mailboxes := f t.scheduler.broker.mailboxes }

def count (t : Timeline) (f : Metrics → Metrics) : Timeline :=
  { t with scheduler.broker := t.broker.count f }

/-- Worker and sweeper go on until nothing is left to do. -/
def settle (t : Timeline) : Timeline :=
  let scheduler := t.scheduler.settle t.now
  match t.sweeper with
  | none => { t with scheduler }
  | some w =>
    let (w, scheduler) := w.sweep t.now scheduler
    { t with scheduler := scheduler.settle t.now, sweeper := some w }

def advance (t : Timeline) (span : Nanos) : Timeline := { t with now := t.now + span }.settle

def enqueue (t : Timeline) (c : Command) : Bool × Timeline :=
  match t.scheduler.enqueue? c with
  | some scheduler => (true, { t with scheduler })
  | none => (false, t)

/-- Queues a request that nobody awaits any more. Tells whether the queue took it. -/
def enqueueAbandoned (t : Timeline) (make : Ticket → Command) : Bool × Timeline :=
  match t.scheduler.request? make with
  | some (ticket, scheduler) => (true, { t with scheduler := scheduler.abandon ticket })
  | none => (false, t)

def request (t : Timeline) (make : Ticket → Command) : Reply × Timeline :=
  match t.scheduler.request? make with
  | none => (.stopped, t)
  | some (ticket, scheduler) =>
    let t := { t with scheduler }.settle
    match t.scheduler.collect? ticket with
    | some (r, scheduler) => (r, { t with scheduler })
    | none => (.stopped, t)

end Timeline

end AgentBroker
