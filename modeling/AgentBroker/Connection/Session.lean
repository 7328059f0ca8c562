import AgentBroker.Broker.Timeline
import AgentBroker.Wire.Message

/-!
# Sessions of connections

Behind its admission a connection submits every envelope that it reads, in order, and writes every
notice that comes into its mailbox, in order. When either ends, it leaves the session that it was
admitted with, and nothing of it is submitted any more.
-/

namespace AgentBroker

structure Session where
  agent : String
  channel : Channel
  maxFrame : Nat
  /-- What has come of the next frame. -/
  pending : Bytes
  isOpen : Bool
  deriving DecidableEq, Repr

namespace Session

def start (agent : String) (channel : Channel) (maxFrame : Nat) : Session :=
  ⟨agent, channel, maxFrame, [], true⟩

def close (s : Session) (t : Timeline) : Session × Timeline :=
  if s.isOpen then
    ({ s with isOpen := false }, (t.enqueue (.disconnectSession s.agent s.channel)).2)
  else (s, t)

/-- A frame has come. One that holds no envelope is counted and passed over. -/
def takeFrame (s : Session) (t : Timeline) (body : Bytes) : Session × Timeline :=
  if s.isOpen then
    match (Wire.decode? body : Option Envelope) with
    | none => (s, t.count .decodeError)
    | some e =>
      match t.enqueue (.envelope s.agent e) with
      | (true, t) => (s, t)
      | (false, t) => s.close t
  else (s, t)

/-- Bytes have come. A frame above the limit ends the session. -/
def receive (s : Session) (t : Timeline) (bytes : Bytes) : Session × Timeline :=
  if s.isOpen then
    let (bodies, left) := Frame.takeComplete s.maxFrame (s.pending ++ bytes)
    let kept := { s with pending := left }
    let (s, t) := bodies.foldl (fun (s, t) body => s.takeFrame t body) (kept, t)
    match Frame.next s.maxFrame left with
    | .tooLarge _ => s.close t
    | _ => (s, t)
  else (s, t)

def hangUp (s : Session) (t : Timeline) : Session × Timeline := s.close t

/-- The frames of notices, up to the first that cannot be written. Tells whether there is one. -/
def frames (maxFrame : Nat) : List Notice → List Bytes × Bool
  | [] => ([], false)
  | n :: ns =>
    match Frame.write? maxFrame (Wire.encode n) with
    | .error _ => ([], true)
    | .ok bytes =>
      let (more, failed) := frames maxFrame ns
      (bytes :: more, failed)

/-- Nothing will come into the mailbox any more. -/
def isDrained (s : Session) (t : Timeline) : Bool :=
  t.scheduler.isStopped || !t.broker.canWrite s.channel

def write (s : Session) (t : Timeline) : List Bytes × Session × Timeline :=
  if s.isOpen then
    let (notices, mailboxes) := t.broker.mailboxes.take s.channel
    let (out, failed) := frames s.maxFrame notices
    let t := t.mapMailboxes fun _ => mailboxes
    if failed || s.isDrained t then (out, s.close t) else (out, s, t)
  else ([], s, t)

end Session

end AgentBroker
