import AgentBroker.Agent.Recorder
import AgentBroker.Negotiation.Dialogue

/-!
# Handlers

A handler is told every callback of its agent and may answer with an envelope. A recorder keeps all
callbacks; a seller answers every call for proposals with its offers, and keeps what concerns its
dialogues; a silent handler does nothing.
-/

namespace AgentBroker

structure Seller where
  offers : List Instance
  book : DialogueBook

namespace Seller

def start (offers : List Instance) : Seller := ⟨offers, .empty⟩

def openDialogues (s : Seller) : Nat := s.book.size

/-- Answers a call with the offers, if the conversation id spells an identifier. -/
def propose (s : Seller) (origin conversationId : String) (msgId : UInt32) :
    Seller × Option Envelope :=
  match s.book.join? conversationId origin with
  | none => (s, none)
  | some (d, book) =>
    let d := d.receive msgId
    ({ s with book := book.put d.send },
      some (.negotiation conversationId origin d.nextMsgId d.replyTarget
        (.propose (.offers s.offers))))

def finish (s : Seller) (conversationId : String) : Seller :=
  match Uuid.parse? conversationId with
  | some id => { s with book := s.book.finish id }
  | none => s

def keeps : Callback → Bool
  | .called .. | .accepted .. | .declined .. | .error .. => true
  | _ => false

def hear (s : Seller) : Callback → Seller × Option Envelope
  | .called origin conversationId msgId _ _ => s.propose origin conversationId msgId
  | .accepted _ conversationId _ _ | .declined _ conversationId _ _ =>
    (s.finish conversationId, none)
  | _ => (s, none)

end Seller

inductive Handler where
  | recorder (record : Record)
  | seller (s : Seller) (record : Record)
  | silent

namespace Handler

def hear (h : Handler) (c : Callback) : Handler × Option Envelope :=
  match h with
  | recorder record => (recorder (record ++ [c]), none)
  | seller s record =>
    match s.hear c with
    | (s, reply) => (seller s (if Seller.keeps c then record ++ [c] else record), reply)
  | silent => (silent, none)

def hearNotice (h : Handler) (n : Notice) : Handler × Option Envelope :=
  match Callback.ofNotice? n with
  | some c => h.hear c
  | none => (h, none)

def record : Handler → Record
  | recorder r | seller _ r => r
  | silent => []

def clear : Handler → Handler
  | recorder _ => recorder []
  | seller s _ => seller s []
  | silent => silent

end Handler

end AgentBroker
