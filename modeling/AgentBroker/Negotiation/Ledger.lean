import AgentBroker.Negotiation.Basic
import Std.Data.ExtTreeMap
import Std.Data.ExtTreeSet

/-!
# The ledger of negotiations

The broker's record of all negotiations that it relays, by conversation id. A negotiation leaves the
ledger when it is finished, when a party leaves, or when it has been idle for too long; its id is
then retired and never opened again.
-/

namespace AgentBroker

structure Ledger where
  ongoing : Std.ExtTreeMap String Negotiation
  retired : Std.ExtTreeSet String

namespace Ledger

def empty : Ledger := ⟨∅, ∅⟩

instance : Inhabited Ledger := ⟨empty⟩

def get? (l : Ledger) (id : String) : Option Negotiation := l.ongoing[id]?

def isRetired (l : Ledger) (id : String) : Bool := l.retired.contains id

def size (l : Ledger) : Nat := l.ongoing.size

def isEmpty (l : Ledger) : Bool := l.ongoing.isEmpty

/-- Drops a negotiation and keeps its id from ever being opened again. -/
def retire (l : Ledger) (id : String) : Ledger := ⟨l.ongoing.erase id, l.retired.insert id⟩

/-- Files the state of a negotiation. One that is finished is retired instead. -/
def file (l : Ledger) (n : Negotiation) : Ledger :=
  if n.stage.isTerminal then l.retire n.id else { l with ongoing := l.ongoing.insert n.id n }

def judgeCall (l : Ledger) (now : Nanos) (sender receiver id : String) (m : NegotiationMessage) :
    Except Breach Negotiation :=
  if l.isRetired id then .error (.unknownConversation id)
  else if l.ongoing.contains id then .error (.conversationExists id)
  else if m.target ≠ 0 then .error (.targetMismatch id 0 m.target)
  else if m.msgId = 0 then .error (.nonMonotonicMsgId id 0 0)
  else .ok (.start now sender receiver id m.msgId)

def judge (l : Ledger) (now : Nanos) (sender receiver id : String) (m : NegotiationMessage) :
    Except Breach Negotiation :=
  match m.step.move with
  | .call => l.judgeCall now sender receiver id m
  | _ =>
    match l.get? id with
    | none => .error (.unknownConversation id)
    | some n => n.advance now sender receiver m

/-- Judges a message and files the state of its negotiation. A message that is refused leaves the
ledger as it is. -/
def observe (l : Ledger) (now : Nanos) (sender receiver id : String) (m : NegotiationMessage) :
    Except Breach (Negotiation × Ledger) :=
  (l.judge now sender receiver id m).map fun n => (n, l.file n)

def retireAll (l : Ledger) (ids : List String) : Ledger := ids.foldl retire l

def idsWhere (l : Ledger) (p : Negotiation → Bool) : List String :=
  (l.ongoing.toList.filter fun (_, n) => p n).map (·.1)

def removeAgent (l : Ledger) (agent : String) : Nat × Ledger :=
  let ids := l.idsWhere (·.involves agent)
  (ids.length, l.retireAll ids)

/-- Retires the negotiations whose last message is more than `maxIdle` ago. Also gives their ids. -/
def expireIdle (l : Ledger) (now maxIdle : Nanos) : List String × Ledger :=
  let ids := l.idsWhere fun n => maxIdle < now - n.lastActivity
  (ids, l.retireAll ids)

end Ledger

end AgentBroker
