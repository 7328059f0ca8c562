import AgentBroker.Message.Notice
import Std.Data.ExtTreeSet

/-!
# Mailboxes

Every session has a mailbox, where the notices for its agent wait until the transport takes them. A
mailbox that nobody reads any more takes nothing in. The broker's sessions write to mailboxes, and
others may keep the right to write as well.
-/

namespace AgentBroker

abbrev Channel := Nat

structure Mailboxes where
  /-- Those that nobody reads any more. -/
  closed : Std.ExtTreeSet Channel
  /-- Those that someone besides the sessions can write to. -/
  held : Std.ExtTreeSet Channel
  /-- The notices that nobody has taken yet, oldest first. -/
  waiting : List (Channel × Notice)

namespace Mailboxes

def empty : Mailboxes := ⟨∅, ∅, []⟩

instance : Inhabited Mailboxes := ⟨empty⟩

def isOpen (m : Mailboxes) (c : Channel) : Bool := !m.closed.contains c

/-- Puts a notice into a mailbox, if somebody still reads it. -/
def put? (m : Mailboxes) (c : Channel) (n : Notice) : Option Mailboxes :=
  if m.isOpen c then some { m with waiting := m.waiting ++ [(c, n)] } else none

def contents (m : Mailboxes) (c : Channel) : List Notice :=
  (m.waiting.filter (·.1 == c)).map (·.2)

def take (m : Mailboxes) (c : Channel) : List Notice × Mailboxes :=
  (m.contents c, { m with waiting := m.waiting.filter (·.1 != c) })

def takeFirst? (m : Mailboxes) (c : Channel) : Option (Notice × Mailboxes) :=
  (m.waiting.find? (·.1 == c)).map fun (_, n) =>
    (n, { m with waiting := m.waiting.eraseP (·.1 == c) })

/-- Nobody reads the mailbox any more. What waits in it is lost. -/
def close (m : Mailboxes) (c : Channel) : Mailboxes :=
  { m with closed := m.closed.insert c, waiting := m.waiting.filter (·.1 != c) }

def hold (m : Mailboxes) (c : Channel) : Mailboxes := { m with held := m.held.insert c }

def release (m : Mailboxes) (c : Channel) : Mailboxes := { m with held := m.held.erase c }

end Mailboxes

end AgentBroker
