import AgentBroker.Message.Notice
import AgentBroker.Wire.Description

/-!
# The wire form of envelopes and notices
-/

namespace AgentBroker

open Json

instance : Wire CallContent where
  toJson
    | .text s => variant "content" (toJson s)
    | .query q => variant "query" (toJson q)
    | .nothing => Json.ofString "nothing"
  ofJson? j := do
    match ← j.variant? with
    | ("content", some body) => (ofJson? body).map .text
    | ("query", some body) => (ofJson? body).map .query
    | ("nothing", body) => if isBare body then some .nothing else none
    | _ => none

instance : Wire Proposal where
  toJson
    | .text s => variant "content" (toJson s)
    | .offers instances => variant "proposals" (toJson instances)
  ofJson? j := do
    match ← j.variant? with
    | ("content", some body) => (ofJson? body).map .text
    | ("proposals", some body) => (ofJson? body).map .offers
    | _ => none

instance : Wire Step where
  toJson
    | .call content => variant "cfp" (toJson content)
    | .propose proposal => variant "propose" (toJson proposal)
    | .accept => Json.ofString "accept"
    | .decline => Json.ofString "decline"
  ofJson? j := do
    match ← j.variant? with
    | ("cfp", some body) => (ofJson? body).map .call
    | ("propose", some body) => (ofJson? body).map .propose
    | ("accept", body) => if isBare body then some .accept else none
    | ("decline", body) => if isBare body then some .decline else none
    | _ => none

instance : Wire NegotiationMessage where
  toJson m :=
    record [("msg_id", toJson m.msgId), ("target", toJson m.target), ("payload", toJson m.step)]
  ofJson? j := do
    let [msgId, target, step] ← j.record? ["msg_id", "target", "payload"] | none
    return ⟨← field? msgId, ← field? target, ← field? step⟩

instance : Wire Body where
  toJson
    | .text s => variant "content" (toJson s)
    | .negotiation m => variant "fipa" (toJson m)
  ofJson? j := do
    match ← j.variant? with
    | ("content", some body) => (ofJson? body).map .text
    | ("fipa", some body) => (ofJson? body).map .negotiation
    | _ => none

instance : Wire Letter where
  toJson l :=
    record [("conversation_id", toJson l.conversationId), ("destination", toJson l.destination),
      ("body", toJson l.body)]
  ofJson? j := do
    let [conversationId, destination, body] ←
      j.record? ["conversation_id", "destination", "body"] | none
    return ⟨← field? conversationId, ← field? destination, ← field? body⟩

instance : Wire Search where
  toJson s := record [("search_id", toJson s.searchId), ("query", toJson s.query)]
  ofJson? j := do
    let [searchId, query] ← j.record? ["search_id", "query"] | none
    return ⟨← field? searchId, ← field? query⟩

/-- The body of a registration: a record around the instance. -/
def instanceRecord (i : Instance) : Json := record [("instance", toJson i)]

def instanceRecord? (j : Json) : Option Instance := do
  let [i] ← j.record? ["instance"] | none
  field? i

instance : Wire Request where
  toJson
    | .sendMessage letter => variant "send_message" (toJson letter)
    | .registerService i => variant "register_service" (instanceRecord i)
    | .unregisterService i => variant "unregister_service" (instanceRecord i)
    | .registerDescription i => variant "register_description" (instanceRecord i)
    | .unregisterDescription => Json.ofString "unregister_description"
    | .searchAgents s => variant "search_agents" (toJson s)
    | .searchServices s => variant "search_services" (toJson s)
  ofJson? j := do
    match ← j.variant? with
    | ("send_message", some body) => (ofJson? body).map .sendMessage
    | ("register_service", some body) => (instanceRecord? body).map .registerService
    | ("unregister_service", some body) => (instanceRecord? body).map .unregisterService
    | ("register_description", some body) => (instanceRecord? body).map .registerDescription
    | ("unregister_description", body) => if isBare body then some .unregisterDescription else none
    | ("search_agents", some body) => (ofJson? body).map .searchAgents
    | ("search_services", some body) => (ofJson? body).map .searchServices
    | _ => none

instance : Wire Envelope where
  toJson e := record [("msg_id", toJson e.msgId), ("payload", toJson e.request)]
  ofJson? j := do
    let [msgId, request] ← j.record? ["msg_id", "payload"] | none
    return ⟨← fieldOr? 0 msgId, ← optionalField? request⟩

instance : Wire Operation :=
  ⟨fun op => Json.ofString op.label, name? (Operation.all.map fun op => (op.label, op))⟩

def givenMember {α : Type} [Wire α] (key : String) : Option α → List (String × Json)
  | none => []
  | some a => [(key, toJson a)]

instance : Wire ErrorReport where
  toJson r :=
    record (("operation", toJson r.operation) ::
      (givenMember "conversation_id" r.conversationId ++ givenMember "msg_id" r.msgId))
  ofJson? j := do
    let [operation, conversationId, msgId] ←
      j.record? ["operation", "conversation_id", "msg_id"] | none
    return ⟨← field? operation, ← optionalField? conversationId, ← optionalField? msgId⟩

instance : Wire Delivery where
  toJson d :=
    record [("origin", toJson d.origin), ("conversation_id", toJson d.conversationId),
      ("body", toJson d.body)]
  ofJson? j := do
    let [origin, conversationId, body] ← j.record? ["origin", "conversation_id", "body"] | none
    return ⟨← field? origin, ← field? conversationId, ← field? body⟩

instance : Wire News where
  toJson
    | .error report => variant "error" (toJson report)
    | .undeliverable conversationId destination =>
      variant "dialogue_error"
        (record [("conversation_id", toJson conversationId), ("destination", toJson destination)])
    | .searchResult searchId agents =>
      variant "search_result" (record [("search_id", toJson searchId), ("agents", toJson agents)])
    | .delivery d => variant "content" (toJson d)
  ofJson? j := do
    let (name, some body) ← j.variant? | none
    match name with
    | "error" => (ofJson? body).map .error
    | "dialogue_error" =>
      let [conversationId, destination] ← body.record? ["conversation_id", "destination"] | none
      return .undeliverable (← field? conversationId) (← field? destination)
    | "search_result" =>
      let [searchId, agents] ← body.record? ["search_id", "agents"] | none
      return .searchResult (← field? searchId) (← field? agents)
    | "content" => (ofJson? body).map .delivery
    | _ => none

instance : Wire Notice where
  toJson n := record [("answer_id", toJson n.answerId), ("payload", toJson n.news)]
  ofJson? j := do
    let [answerId, news] ← j.record? ["answer_id", "payload"] | none
    return ⟨← fieldOr? 0 answerId, ← optionalField? news⟩

end AgentBroker
