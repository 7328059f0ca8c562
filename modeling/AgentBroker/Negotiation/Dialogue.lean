import AgentBroker.Uuid
import Std.Data.ExtTreeMap

/-!
# Dialogues

An agent's own record of its conversations: who the peer is, how the next message is numbered, and
which message a reply refers to.
-/

namespace AgentBroker

structure Dialogue where
  id : Uuid
  peer : String
  lastSent : UInt32
  lastReceived : UInt32
  deriving DecidableEq, Repr

namespace Dialogue

def start (id : Uuid) (peer : String) : Dialogue := ⟨id, peer, 0, 0⟩

/-- The number of the next message, 1 for the first. Behind `2 ^ 32 - 1` it wraps to zero, as it does
without overflow checks; with them the program panics there. -/
def nextMsgId (d : Dialogue) : UInt32 := d.lastSent + 1

def send (d : Dialogue) : Dialogue := { d with lastSent := d.nextMsgId }

def receive (d : Dialogue) (msgId : UInt32) : Dialogue := { d with lastReceived := msgId }

/-- The target of a reply: the last message received, 0 if there is none. -/
def replyTarget (d : Dialogue) : UInt32 := d.lastReceived

end Dialogue

structure DialogueBook where
  dialogues : Std.ExtTreeMap Uuid Dialogue

namespace DialogueBook

def empty : DialogueBook := ⟨∅⟩

instance : Inhabited DialogueBook := ⟨empty⟩

def get? (b : DialogueBook) (id : Uuid) : Option Dialogue := b.dialogues[id]?

def size (b : DialogueBook) : Nat := b.dialogues.size

def isEmpty (b : DialogueBook) : Bool := b.dialogues.isEmpty

def put (b : DialogueBook) (d : Dialogue) : DialogueBook := ⟨b.dialogues.insert d.id d⟩

/-- The dialogue of an identifier, started if it is new. The peer of one that is known stays. -/
def track (b : DialogueBook) (id : Uuid) (peer : String) : Dialogue × DialogueBook :=
  match b.get? id with
  | some d => (d, b)
  | none => (.start id peer, b.put (.start id peer))

/-- The dialogue of a conversation id as it stands on the wire, if that spells an identifier. -/
def join? (b : DialogueBook) (conversationId peer : String) : Option (Dialogue × DialogueBook) :=
  (Uuid.parse? conversationId).map fun id => b.track id peer

def finish (b : DialogueBook) (id : Uuid) : DialogueBook := ⟨b.dialogues.erase id⟩

end DialogueBook

end AgentBroker
