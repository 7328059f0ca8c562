import AgentBroker.Broker.Command

/-!
# The scheduler

One queue holds the commands of all producers, and one worker carries them out, one at a time and in
their order. When the worker takes a stop command it closes the queue; what still stands in the
queue is dropped, and its requests are answered as stopped. A closed queue takes nothing in.
-/

namespace AgentBroker

inductive WorkPhase where
  | running
  /-- The stop command is taken, and the queue is still open. -/
  | stopping
  | stopped
  deriving DecidableEq, Repr

structure Scheduler where
  broker : Broker
  /-- The commands that wait, oldest first. -/
  queue : List Command
  phase : WorkPhase
  /-- The tickets whose answer nobody awaits any more. -/
  abandoned : Std.ExtTreeSet Ticket
  /-- The answers that nobody has collected yet, oldest first. -/
  replies : List (Ticket × Reply)
  /-- The number of tickets handed out. -/
  tickets : Nat

namespace Scheduler

def start (notifications : NotificationSettings) : Scheduler :=
  ⟨.start notifications, [], .running, ∅, [], 0⟩

instance : Inhabited Scheduler := ⟨start default⟩

def isStopped (s : Scheduler) : Bool := s.phase == .stopped

def enqueue? (s : Scheduler) (c : Command) : Option Scheduler :=
  if s.isStopped then none else some { s with queue := s.queue ++ [c] }

def enqueue (s : Scheduler) (c : Command) : Scheduler := (s.enqueue? c).getD s

def request? (s : Scheduler) (make : Ticket → Command) : Option (Ticket × Scheduler) :=
  ({ s with tickets := s.tickets + 1 }.enqueue? (make s.tickets)).map fun s' => (s.tickets, s')

def abandon (s : Scheduler) (t : Ticket) : Scheduler :=
  { s with abandoned := s.abandoned.insert t, replies := s.replies.filter (·.1 != t) }

def collect? (s : Scheduler) (t : Ticket) : Option (Reply × Scheduler) :=
  (s.replies.lookup t).map fun r => (r, { s with replies := s.replies.filter (·.1 != t) })

def awaits (s : Scheduler) (c : Command) : Bool :=
  match c.ticket? with
  | some t => !s.abandoned.contains t
  | none => false

def answer (s : Scheduler) (c : Command) (r : Reply) : Scheduler :=
  match c.ticket? with
  | some t => if s.awaits c then { s with replies := s.replies ++ [(t, r)] } else s
  | none => s

def perform (s : Scheduler) (now elapsed : Nanos) (c : Command) : Scheduler :=
  match s.broker.apply now elapsed (s.awaits c) c with
  | (some r, broker) => { s with broker }.answer c r
  | (none, broker) => { s with broker }

/-- One step of the worker: carries out the next command, closes the queue, or drops what is left
in it. -/
def step (s : Scheduler) (now elapsed : Nanos) : Scheduler :=
  match s.phase, s.queue with
  | .running, [] => s
  | .running, .stop :: rest => { s with phase := .stopping, queue := rest }
  | .running, c :: rest => { s with queue := rest }.perform now elapsed c
  | .stopping, _ => { s with phase := .stopped }
  | .stopped, [] => s
  | .stopped, c :: rest => { s with queue := rest }.answer c .stopped

/-- The worker goes on until it has nothing left to do. -/
def settle (s : Scheduler) (now : Nanos) : Scheduler :=
  Nat.repeat (·.step now 0) (s.queue.length + 2) s

end Scheduler

/-- What queues the removal of idle negotiations again and again. -/
structure Sweeper where
  maxIdle : Nanos
  interval : Nanos
  /-- When the next removal is due. -/
  next : Nanos
  deriving DecidableEq, Repr

namespace Sweeper

/-- The sweeper that the settings ask for. Its first removal is due after one interval. -/
def start? (s : ExpirySettings) (now : Nanos) : Option Sweeper :=
  s.idleTimeout.map fun maxIdle => ⟨maxIdle, s.sweepInterval, now + s.sweepInterval⟩

/-- Queues one removal if any is due. Those that were missed are not made up for: at the same
instant they would find nothing left. -/
def sweep (w : Sweeper) (now : Nanos) (s : Scheduler) : Sweeper × Scheduler :=
  if w.next ≤ now then
    ({ w with next := w.next + ((now - w.next) / w.interval + 1) * w.interval },
      s.enqueue (.expireIdle w.maxIdle))
  else (w, s)

end Sweeper

end AgentBroker
