import AgentBroker.Agent.Numbering
import AgentBroker.Broker.Timeline
import AgentBroker.Config.Problem

/-!
# Agents in the process of the broker

Such an agent talks to the scheduler without a stream. Its session ends by its id.
-/

namespace AgentBroker

structure LocalAccess where
  publicKey : String
  numbering : Numbering
  /-- The mailbox of the last admission, until somebody reads it. -/
  inbox? : Option Channel

namespace LocalAccess

def start (publicKey : String) : LocalAccess := ⟨publicKey, .start, none⟩

/-- Asks to be admitted with a mailbox. The mailbox of an earlier admission that nobody has begun to
read is given up. -/
def handshake (a : LocalAccess) (channel : Channel) (t : Timeline) :
    Except Failure Unit × LocalAccess × Timeline :=
  match validateAgentId a.publicKey with
  | .error p => (.error (.config p), a, t)
  | .ok _ =>
    match t.request (.connect a.publicKey channel) with
    | (.admitted true, t) =>
      let close (m : Mailboxes) := match a.inbox? with
        | some old => m.close old
        | none => m
      (.ok (), { a with inbox? := some channel }, t.mapMailboxes close)
    | (.admitted false, t) => (.error (.handshake (.alreadyConnected a.publicKey)), a, t)
    | (_, t) => (.error .stopped, a, t)

def takeInbox (a : LocalAccess) : Except Failure Channel × LocalAccess :=
  match a.inbox? with
  | some channel => (.ok channel, { a with inbox? := none })
  | none => (.error (.handshake .refused), a)

def submit (c : Command) (t : Timeline) : Except Failure Unit × Timeline :=
  match t.enqueue c with
  | (true, t) => (.ok (), t)
  | (false, t) => (.error .stopped, t)

def send (a : LocalAccess) (e : Envelope) (t : Timeline) :
    Except Failure Unit × LocalAccess × Timeline :=
  let (e, numbering) := a.numbering.stamp e
  let (result, t) := submit (.envelope a.publicKey e) t
  (result, { a with numbering }, t)

def stop (a : LocalAccess) (t : Timeline) : Except Failure Unit × Timeline :=
  submit (.disconnect a.publicKey) t

end LocalAccess

end AgentBroker
