import AgentBroker.Connection.Session
import AgentBroker.Handshake.Gatekeeper

/-!
# The service

All connections of a broker around its scheduler. The transport tells the service what happens on
its streams, and does what the service asks it to do.
-/

namespace AgentBroker

/-- The number of a connection, which is also that of its mailbox. -/
abbrev ConnectionId := Channel

structure Newcomer where
  keeper : Gatekeeper
  /-- What has come of the next frame, and behind it. -/
  pending : Bytes
  /-- Nothing more will come. -/
  hasEnded : Bool
  /-- A message is on its way out. -/
  isWriting : Bool

inductive Connection where
  | newcomer (a : Newcomer)
  | session (s : Session)
  | closed

inductive Effect where
  | send (id : ConnectionId) (bytes : Bytes)
  | close (id : ConnectionId)
  deriving DecidableEq, Repr

structure Service where
  timeline : Timeline
  maxFrame : Nat
  /-- How long a handshake may take. -/
  patience : Nanos
  connections : List (ConnectionId × Connection)
  accepted : Nat

namespace Service

def start (s : Settings) : Service :=
  ⟨.start s, s.listener.maxFrameBytes.toNat, s.handshakeTimeout, [], 0⟩

def connection (s : Service) (id : ConnectionId) : Connection :=
  (s.connections.lookup id).getD .closed

/-- Puts a connection into its new state; one that is closed is forgotten. -/
def put (s : Service) (id : ConnectionId) (c : Connection) : Service :=
  let others := s.connections.filter (·.1 != id)
  match c with
  | .closed => { s with connections := others }
  | c => { s with connections := others ++ [(id, c)] }

def conclude (s : Service) (id : ConnectionId) (a : Newcomer) :
    Except HandshakeError String → Service × List Effect
  | .ok agent =>
    let (session, timeline) := (Session.start agent id s.maxFrame).receive s.timeline a.pending
    let (session, timeline) := if a.hasEnded then session.hangUp timeline else (session, timeline)
    if session.isOpen then ({ s with timeline }.put id (.session session), [])
    else ({ s with timeline }.put id .closed, [.close id])
  | .error _ =>
    ({ s with timeline := s.timeline.mapMailboxes (·.close id) }.put id .closed, [.close id])

def become (s : Service) (a : Newcomer) (g : Gate) : Service × Newcomer :=
  ({ s with timeline := g.timeline }, { a with keeper := g.keeper })

/-- One step of a handshake that does not wait for the transport; none if it waits. -/
def step? (s : Service) (id : ConnectionId) (a : Newcomer) : Option (Service × Newcomer) :=
  let gate : Gate := ⟨a.keeper, s.timeline, id⟩
  let fail (e : WireError) := s.become a (gate.advance (a.keeper.breakOff (.transport e)))
  match a.keeper.need with
  | .frame max =>
    match Frame.next max a.pending with
    | .frame body rest =>
      some (s.become { a with pending := rest } (gate.advance (a.keeper.receive body)))
    | .tooLarge size => some (fail (.tooLarge size max))
    | .incomplete => if a.hasEnded then some (fail (Frame.endError a.pending)) else none
  | .write (.error e) => some (fail e)
  | .turn => some (s.become a (gate.consult s.timeline.now))
  | _ => none

/-- A handshake goes on until it waits for the transport or ends. Every step moves it to a later
stage, of which there are nine. -/
def advance (steps : Nat) (s : Service) (id : ConnectionId) (a : Newcomer) :
    Service × List Effect :=
  match steps, a.keeper.result?, s.step? id a with
  | _, some r, _ => s.conclude id a r
  | steps + 1, none, some (s, a) => advance steps s id a
  | _, none, _ =>
    match a.keeper.need with
    | .write (.ok bytes) => (s.put id (.newcomer { a with isWriting := true }), [.send id bytes])
    | _ => (s.put id (.newcomer a), [])

def stages : Nat := 9

def proceed (s : Service) (id : ConnectionId) (a : Newcomer) (keeper : Gatekeeper) :
    Service × List Effect :=
  let gate := Gate.advance ⟨a.keeper, s.timeline, id⟩ keeper
  let (s, a) := s.become { a with isWriting := false } gate
  advance stages s id a

def flushOne (s : Service) (id : ConnectionId) : Connection → Service × List Effect
  | .session session =>
    match session.write s.timeline with
    | (out, session, timeline) =>
      let s := { s with timeline }
      let sends := out.map (Effect.send id)
      if session.isOpen then (s.put id (.session session), sends)
      else (s.put id .closed, sends ++ [.close id])
  | _ => (s, [])

def flush (s : Service) : Service × List Effect :=
  s.connections.foldl
    (fun (s, effects) (id, c) =>
      let (s, more) := s.flushOne id c
      (s, effects ++ more))
    ({ s with timeline := s.timeline.settle }, [])

def settled (r : Service × List Effect) : Service × List Effect :=
  let (s, effects) := r.1.flush
  (s, r.2 ++ effects)

def accept (s : Service) (phrase : String) : ConnectionId × Service :=
  let keeper := Gatekeeper.start s.maxFrame s.patience phrase
  let keeper := { keeper with deadline := s.timeline.now + s.patience }
  (s.accepted,
    { s with accepted := s.accepted + 1 }.put s.accepted (.newcomer ⟨keeper, [], false, false⟩))

/-- Waits with a message on its way out, and goes on otherwise. -/
def resume (s : Service) (id : ConnectionId) (a : Newcomer) : Service × List Effect :=
  if a.isWriting then (s.put id (.newcomer a), []) else s.proceed id a a.keeper

def received (s : Service) (id : ConnectionId) (bytes : Bytes) : Service × List Effect :=
  settled <| match s.connection id with
    | .newcomer a => s.resume id { a with pending := a.pending ++ bytes }
    | .session session =>
      let (session, timeline) := session.receive s.timeline bytes
      ({ s with timeline }.put id (.session session), [])
    | .closed => (s, [])

def wrote (s : Service) (id : ConnectionId) (ok : Bool) : Service × List Effect :=
  settled <| match s.connection id, ok with
    | .newcomer a, true => s.proceed id a a.keeper.wrote
    | .newcomer a, false => s.proceed id a (a.keeper.breakOff (.transport .broken))
    | .session session, false =>
      let (session, timeline) := session.hangUp s.timeline
      ({ s with timeline }.put id (.session session), [])
    | _, _ => (s, [])

def hungUp (s : Service) (id : ConnectionId) : Service × List Effect :=
  settled <| match s.connection id with
    | .newcomer a => s.resume id { a with hasEnded := true }
    | .session session =>
      let (_, timeline) := session.hangUp s.timeline
      ({ s with timeline }.put id .closed, [.close id])
    | .closed => (s, [])

def tick (s : Service) (now : Nanos) : Service × List Effect :=
  let s := { s with timeline := s.timeline.advance (now - s.timeline.now) }
  let isLate (a : Newcomer) := a.keeper.alarm?.any (decide <| · ≤ now)
  let expire : Service × List Effect → ConnectionId × Connection → Service × List Effect
    | (s, effects), (id, .newcomer a) =>
      if isLate a then
        let (s, more) := s.proceed id a (a.keeper.breakOff (.timeout a.keeper.patience))
        (s, effects ++ more)
      else (s, effects)
    | r, _ => r
  settled (s.connections.foldl expire (s, []))

def stop (s : Service) : Service × List Effect :=
  settled ({ s with timeline := (s.timeline.enqueue .stop).2 }, [])

end Service

end AgentBroker
