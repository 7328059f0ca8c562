import AgentBroker.Agent.Callback
import AgentBroker.Broker.Command
import AgentBroker.Wire.Message

/-!
# Reports

How results are shown: plain values as JSON, an error by its kind and its message, and the state of
the broker and its negotiations as records. An error whose cause lies outside is told by its kind
alone.
-/

namespace AgentBroker

class Report (α : Type) where
  report : α → Json

export Report (report)

namespace Report

variable {α ε : Type}

def error (kind message : String) (isForeign : Bool) : Json :=
  Json.record (("error", Json.ofString kind) ::
    if isForeign then [] else [("message", Json.ofString message)])

instance : Report Json := ⟨id⟩
instance : Report Unit := ⟨fun _ => Json.ofString "ok"⟩
instance : Report Bool := ⟨Json.bool⟩
instance : Report Nat := ⟨Json.ofNat⟩
instance : Report String := ⟨Json.ofString⟩
instance [Report α] : Report (List α) := ⟨fun as => .array (as.map report)⟩
instance [Report α] : Report (Option α) := ⟨Json.ofOption report⟩

instance [Report ε] [Report α] : Report (Except ε α) where
  report
    | .ok a => report a
    | .error e => report e

instance (priority := low) [Wire α] : Report α := ⟨toJson⟩

instance : Report Misfit := ⟨fun m => error m.kind m.message false⟩
instance : Report Breach := ⟨fun b => error b.kind b.message false⟩
instance : Report WireError := ⟨fun e => error e.kind e.message e.isForeign⟩
instance : Report HandshakeError := ⟨fun e => error e.kind e.message e.isForeign⟩
instance : Report ConfigProblem := ⟨fun p => error p.kind p.message p.isForeign⟩
instance : Report Failure := ⟨fun f => error f.kind f.message f.isForeign⟩

def stopped : Json := error "Stopped" "Scheduler has stopped" false

instance : Report BrokerStats where
  report s :=
    Json.record [("sessions", report s.sessions), ("services", report s.services),
      ("identities", report s.descriptions), ("conversations", report s.negotiations)]

def moveName : Move → String
  | .call => "Cfp"
  | .propose => "Propose"
  | .accept => "Accept"
  | .decline => "Decline"

instance : Report Phase :=
  ⟨fun p => Json.ofString (moveName p.move ++ if p.sent then "Sent" else "Received")⟩

instance : Report Negotiation where
  report n :=
    Json.record [("id", report n.id), ("initiator", report n.initiator),
      ("responder", report n.responder), ("stage", report n.stage.label),
      ("terminal", report n.stage.isTerminal),
      ("last", report [n.initiatorLast.toNat, n.responderLast.toNat]),
      ("phases", report [n.phase .initiator, n.phase .responder])]

instance : Report Reply where
  report
    | .admitted ok | .relayed ok => report ok
    | .found agents => report agents
    | .stats s => report s
    | .sessions agents => report agents
    | .stopped => stopped

def stepRecord (event origin conversationId : String) (msgId target : UInt32)
    (payload : List Json) : Json :=
  Json.record ([("event", report event), ("origin", report origin),
    ("conversation_id", report conversationId), ("msg_id", report msgId),
    ("target", report target)] ++ payload.map fun p => ("payload", p))

instance : Report Callback where
  report
    | .error answerId e =>
      Json.record [("event", report "error"), ("answer_id", report answerId),
        ("operation", report e.operation.label), ("conversation_id", report e.conversationId),
        ("msg_id", report e.msgId)]
    | .undeliverable answerId conversationId destination =>
      Json.record [("event", report "dialogue_error"), ("answer_id", report answerId),
        ("conversation_id", report conversationId), ("destination", report destination)]
    | .searchResult searchId agents =>
      Json.record [("event", report "search_result"), ("search_id", report searchId),
        ("agents", report agents)]
    | .message origin conversationId content =>
      Json.record [("event", report "message"), ("origin", report origin),
        ("conversation_id", report conversationId), ("content", report content)]
    | .called origin conversationId msgId target content =>
      stepRecord "cfp" origin conversationId msgId target [toJson content]
    | .proposed origin conversationId msgId target proposal =>
      stepRecord "propose" origin conversationId msgId target [toJson proposal]
    | .accepted origin conversationId msgId target =>
      stepRecord "accept" origin conversationId msgId target []
    | .declined origin conversationId msgId target =>
      stepRecord "decline" origin conversationId msgId target []

end Report

end AgentBroker
