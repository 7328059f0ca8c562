import AgentBroker.Proofs.Broker.Aftermath

/-!
# What an envelope does

An envelope changes the directory or the ledger as its request asks, delivers at most one message,
and is answered by notices that deliver nothing. Every agent that turns out to be gone on the way
is disconnected.
-/

namespace AgentBroker

def Request.isFiling : Request → Bool
  | .registerService _ | .unregisterService _ => true
  | .registerDescription _ | .unregisterDescription => true
  | _ => false

def Request.validate : Request → Except Misfit Unit
  | .registerService i | .registerDescription i => i.validate
  | .searchAgents s | .searchServices s => s.query.validate
  | _ => .ok ()

def Notice.isDelivery (n : Notice) : Bool :=
  match n.news with
  | some (.delivery _) => true
  | _ => false

theorem Failure.notice?_isDelivery {f : Failure} {operation : Operation} {n : Notice}
    (h : f.notice? operation = some n) : n.isDelivery = false := by
  cases f <;> cases h <;> rfl

namespace Broker

variable {b b' : Broker} {request : Request}

def accepts (b : Broker) (now : Nanos) (sender : String) (letter : Letter) : Bool :=
  match letter.body with
  | .text _ => true
  | .negotiation m =>
    (b.ledger.observe now sender letter.destination letter.conversationId m).isOk

def ledgerAfter (b : Broker) (now : Nanos) (sender : String) (letter : Letter) : Ledger :=
  match letter.body with
  | .text _ => b.ledger
  | .negotiation m =>
    match b.ledger.observe now sender letter.destination letter.conversationId m with
    | .ok (_, ledger) => ledger
    | .error _ => b.ledger

/-- The change that a request asks for. -/
def edit (b : Broker) (now : Nanos) (agent : String) : Request → Broker
  | .registerService i =>
    if i.validate.isOk then { b with directory := b.directory.register agent i } else b
  | .unregisterService i => { b with directory := (b.directory.unregister agent i).2 }
  | .registerDescription i =>
    if i.validate.isOk then { b with directory := b.directory.describe agent i } else b
  | .unregisterDescription => { b with directory := (b.directory.undescribe agent).2 }
  | .searchAgents _ | .searchServices _ => b
  | .sendMessage letter =>
    if b.isConnected letter.destination then
      { b with ledger := b.ledgerAfter now agent letter }
    else b

theorem edit_frame (b : Broker) (now : Nanos) (agent : String) (request : Request) :
    ∃ directory ledger, b.edit now agent request = { b with directory, ledger } := by
  cases request with
  | registerService i =>
    rw [edit]
    split
    · exact ⟨_, _, rfl⟩
    · exact ⟨_, _, rfl⟩
  | registerDescription i =>
    rw [edit]
    split
    · exact ⟨_, _, rfl⟩
    · exact ⟨_, _, rfl⟩
  | sendMessage letter =>
    rw [edit]
    split
    · exact ⟨_, _, rfl⟩
    · exact ⟨_, _, rfl⟩
  | _ => exact ⟨_, _, rfl⟩

theorem mailboxes_edit (now : Nanos) (agent : String) (request : Request) :
    (b.edit now agent request).mailboxes = b.mailboxes := by
  obtain ⟨directory, ledger, eq⟩ := edit_frame b now agent request
  rw [eq]

theorem session?_edit (now : Nanos) (agent other : String) (request : Request) :
    (b.edit now agent request).session? other = b.session? other := by
  obtain ⟨directory, ledger, eq⟩ := edit_frame b now agent request
  rw [eq]
  rfl

/-- The messages that a request delivers, with their mailboxes. -/
def deliveries (b : Broker) (now : Nanos) (agent : String) : Request → List (Channel × Notice)
  | .sendMessage letter =>
    if b.accepts now agent letter then
      (b.reach? letter.destination).toList.map
        (·, Notice.delivery agent letter.conversationId letter.body)
    else []
  | _ => []

/-- `b'` is `b` after messages have been delivered, answers that deliver nothing have been given, and
some agents have lost their sessions. -/
def Answered (b : Broker) (delivered : List (Channel × Notice)) (b' : Broker) : Prop :=
  ∃ answers, Aftermath b (delivered ++ answers) b' ∧ ∀ a ∈ answers, a.2.isDelivery = false

theorem Answered.of_aftermath {posts : List (Channel × Notice)} (h : Aftermath b posts b') :
    Answered b posts b' :=
  ⟨[], by rwa [List.append_nil], by simp⟩

theorem Answered.count {posts : List (Channel × Notice)} (h : Answered b posts b')
    (f : Metrics → Metrics) : Answered b posts (b'.count f) := by
  obtain ⟨answers, after, silent⟩ := h
  exact ⟨answers, after.count f, silent⟩

theorem Answered.send {posts : List (Channel × Notice)} (h : Answered b posts b') (agent : String)
    {n : Notice} (silent : n.isDelivery = false) : Answered b posts (b'.send agent n).2 := by
  obtain ⟨answers, after, silents⟩ := h
  refine ⟨answers ++ (b'.reach? agent).toList.map (·, n), ?_, ?_⟩
  · rw [← List.append_assoc]
    exact after.trans (Aftermath.send b' agent n)
  · intro a ha
    rcases List.mem_append.mp ha with ha | ha
    · exact silents a ha
    · obtain ⟨c, -, rfl⟩ := List.mem_map.mp ha
      exact silent

theorem Answered.countFailure {posts : List (Channel × Notice)} (h : Answered b posts b')
    (f : Failure) : Answered b posts (b'.countFailure f) := by
  cases f <;> first | exact h.count _ | exact h

theorem Answered.report {posts : List (Channel × Notice)} (h : Answered b posts b')
    (agent : String) (msgId : UInt32) (operation : Operation) (f : Failure) :
    Answered b posts (b'.report agent msgId operation f) := by
  have counted := h.countFailure f
  unfold Broker.report
  dsimp only
  split
  · split
    next n told =>
      have silent : n.isDelivery = false := Failure.notice?_isDelivery told
      exact counted.send agent silent
    · exact counted
  · exact counted

theorem answerSearch_eq (b : Broker) (find : Directory → Query → List String) (agent : String)
    (msgId : UInt32) (s : Search) :
    answerSearch agent msgId s (b.search find s.query) =
      match s.query.validate with
      | .error m => (.error (.misfit m), b)
      | .ok _ => (.ok (), ((b.count .search).send agent
          ⟨msgId, some (.searchResult s.searchId (find b.directory s.query))⟩).2) := by
  rw [search]
  cases s.query.validate with
  | error m => rfl
  | ok u => rfl

theorem Answered.search {posts : List (Channel × Notice)} (h : Answered b posts b')
    (find : Directory → Query → List String) (agent : String) (msgId : UInt32) (s : Search) :
    Answered b posts (answerSearch agent msgId s (b'.search find s.query)).2 := by
  rw [answerSearch_eq]
  cases s.query.validate with
  | error m => exact h
  | ok u => exact (h.count .search).send agent rfl

theorem run_filing (b : Broker) (now : Nanos) (agent : String) (msgId : UInt32) {request : Request}
    (filing : request.isFiling) :
    (∃ m, request.validate = .error m ∧ b.edit now agent request = b ∧
      b.run now agent msgId request = (.error (.misfit m), b)) ∨
    request.validate = .ok () ∧
      ∃ g, b.run now agent msgId request = (.ok (), (b.edit now agent request).count g) := by
  cases request with
  | registerService i =>
    rw [run, registerService, edit, Request.validate]
    cases i.validate with
    | error m => exact .inl ⟨m, rfl, rfl, rfl⟩
    | ok u => exact .inr ⟨rfl, .registration, rfl⟩
  | registerDescription i =>
    rw [run, registerDescription, edit, Request.validate]
    cases i.validate with
    | error m => exact .inl ⟨m, rfl, rfl, rfl⟩
    | ok u => exact .inr ⟨rfl, .registration, rfl⟩
  | unregisterService i =>
    rw [run, unregisterService, edit]
    refine .inr ⟨rfl, ?_⟩
    obtain ⟨found, directory⟩ := b.directory.unregister agent i
    cases found with
    | true => exact ⟨.unregistration, rfl⟩
    | false => exact ⟨id, rfl⟩
  | unregisterDescription =>
    rw [run, unregisterDescription, edit]
    refine .inr ⟨rfl, ?_⟩
    obtain ⟨found, directory⟩ := b.directory.undescribe agent
    cases found with
    | true => exact ⟨.unregistration, rfl⟩
    | false => exact ⟨id, rfl⟩
  | _ => cases filing

theorem run_filing_answered (now : Nanos) (agent : String) (msgId : UInt32)
    (filing : request.isFiling) :
    Answered (b.edit now agent request) [] (b.run now agent msgId request).2 := by
  rcases run_filing b now agent msgId filing with ⟨m, -, unchanged, ran⟩ | ⟨-, g, ran⟩
  · rw [unchanged, ran]
    exact .of_aftermath (.refl b)
  · rw [ran]
    exact (Answered.of_aftermath (.refl _)).count g

theorem observe_eq_ok_iff {now : Nanos} {sender : String} {letter : Letter} :
    b.observe now sender letter = .ok b' ↔
      b.accepts now sender letter ∧ b' = { b with ledger := b.ledgerAfter now sender letter } := by
  rw [observe, accepts, ledgerAfter]
  cases letter.body with
  | text t =>
    simp only [Except.ok.injEq, true_and]
    exact eq_comm
  | negotiation m =>
    dsimp only
    cases b.ledger.observe now sender letter.destination letter.conversationId m with
    | error breach => simp [Except.isOk, Except.toBool]
    | ok found => simp [Except.isOk, Except.toBool, eq_comm]

theorem accepts_of_refused {now : Nanos} {sender : String} {letter : Letter}
    {m : NegotiationMessage} {breach : Breach} (body : letter.body = .negotiation m)
    (judged : b.ledger.observe now sender letter.destination letter.conversationId m =
      .error breach) : b.accepts now sender letter = false := by
  simp [accepts, body, judged, Except.isOk, Except.toBool]

theorem ledgerAfter_of_refused {now : Nanos} {sender : String} {letter : Letter}
    {m : NegotiationMessage} {breach : Breach} (body : letter.body = .negotiation m)
    (judged : b.ledger.observe now sender letter.destination letter.conversationId m =
      .error breach) : b.ledgerAfter now sender letter = b.ledger := by
  simp [ledgerAfter, body, judged]

/-- How sending a letter can end, and the state in which it leaves the broker. The ledger has taken
note of a negotiation message before anybody knows whether the letter arrives. -/
inductive Sending (b : Broker) (now : Nanos) (sender : String) (letter : Letter) :
    Except Failure Unit → Broker → Prop
  | absent (gone : b.isConnected letter.destination = false) :
      Sending b now sender letter
        (.error (.unreachable letter.conversationId letter.destination)) (b.count .routingFailed)
  | refused {m : NegotiationMessage} {breach : Breach}
      (connected : b.isConnected letter.destination) (body : letter.body = .negotiation m)
      (judged : b.ledger.observe now sender letter.destination letter.conversationId m =
        .error breach) :
      Sending b now sender letter (.error (.breach breach m.msgId)) b
  | lost (connected : b.isConnected letter.destination) (accepted : b.accepts now sender letter)
      (unreached : b.reach? letter.destination = none) :
      Sending b now sender letter
        (.error (.unreachable letter.conversationId letter.destination))
        (({ b with ledger := b.ledgerAfter now sender letter }.drop letter.destination).count
          .routingFailed)
  | arrives {c : Channel} (accepted : b.accepts now sender letter)
      (reached : b.reach? letter.destination = some c) :
      Sending b now sender letter (.ok ())
        (({ b with ledger := b.ledgerAfter now sender letter }.put c
          (.delivery sender letter.conversationId letter.body)).count .messageRouted)

theorem isConnected_of_reach? {c : Channel} {agent : String} (reached : b.reach? agent = some c) :
    b.isConnected agent :=
  isConnected_iff.mpr ⟨c, (reach?_eq_some.mp reached).1⟩

theorem reach?_of_not_isConnected {agent : String} (absent : b.isConnected agent = false) :
    b.reach? agent = none := by
  rw [reach?, session?_eq_none_iff.mpr absent]
  rfl

theorem sendLetter_spec (b : Broker) (now : Nanos) (sender : String) (letter : Letter) :
    Sending b now sender letter (b.sendLetter now sender letter).1
      (b.sendLetter now sender letter).2 := by
  rw [sendLetter]
  by_cases connected : b.isConnected letter.destination
  · rw [if_pos connected]
    cases judged : b.observe now sender letter with
    | error f =>
      rw [observe] at judged
      cases body : letter.body with
      | text t =>
        rw [body] at judged
        cases judged
      | negotiation m =>
        simp only [body] at judged
        split at judged
        · cases judged
        next breach refused =>
          cases judged
          exact .refused connected body refused
    | ok after =>
      obtain ⟨accepted, rfl⟩ := observe_eq_ok_iff.mp judged
      dsimp only
      rw [relay_eq]
      have reached : Broker.reach? { b with ledger := b.ledgerAfter now sender letter }
          letter.destination = b.reach? letter.destination := rfl
      rw [reached]
      cases found : b.reach? letter.destination with
      | some c => exact .arrives accepted found
      | none =>
        have present : Broker.isConnected { b with ledger := b.ledgerAfter now sender letter }
          letter.destination := connected
        simp only [disconnect, if_pos present]
        exact .lost connected accepted found
  · rw [if_neg connected]
    exact .absent (Bool.eq_false_iff.mpr connected)

theorem run_sendMessage (now : Nanos) (agent : String) (letter : Letter) :
    Answered (b.edit now agent (.sendMessage letter))
      (b.deliveries now agent (.sendMessage letter)) (b.sendLetter now agent letter).2 := by
  rw [edit, deliveries]
  have sending := sendLetter_spec b now agent letter
  generalize (b.sendLetter now agent letter).1 = result,
    (b.sendLetter now agent letter).2 = after at sending ⊢
  cases sending with
  | absent gone =>
    rw [gone, reach?_of_not_isConnected gone]
    simp only [Option.toList_none, List.map_nil, ite_self, Bool.false_eq_true, if_false]
    exact (Answered.of_aftermath (.refl b)).count _
  | refused connected body judged =>
    rw [accepts_of_refused body judged, ledgerAfter_of_refused body judged, ite_self]
    exact .of_aftermath (.refl b)
  | lost connected accepted unreached =>
    rw [if_pos connected, if_pos accepted, unreached]
    exact .of_aftermath ((Aftermath.drop _ letter.destination).count _)
  | arrives accepted reached =>
    rw [if_pos (isConnected_of_reach? reached), if_pos accepted, reached]
    exact .of_aftermath ((Aftermath.put (b := { b with ledger := b.ledgerAfter now agent letter })
      reached _).count _)

theorem run_answered (b : Broker) (now : Nanos) (agent : String) (msgId : UInt32)
    (request : Request) :
    Answered (b.edit now agent request) (b.deliveries now agent request)
      (b.run now agent msgId request).2 := by
  cases request with
  | registerService i => exact run_filing_answered now agent msgId rfl
  | unregisterService i => exact run_filing_answered now agent msgId rfl
  | registerDescription i => exact run_filing_answered now agent msgId rfl
  | unregisterDescription => exact run_filing_answered now agent msgId rfl
  | searchAgents s => exact (Answered.of_aftermath (.refl b)).search _ agent msgId s
  | searchServices s => exact (Answered.of_aftermath (.refl b)).search _ agent msgId s
  | sendMessage letter => exact run_sendMessage now agent letter

theorem dispatch_answered (b : Broker) (now elapsed : Nanos) (agent : String) (e : Envelope)
    {request : Request} (h : e.request = some request) :
    Answered (b.edit now agent request) (b.deliveries now agent request)
      (b.dispatch now elapsed agent e).2 := by
  have ran := run_answered b now agent e.msgId request
  unfold dispatch
  rw [h]
  simp only
  split
  next after eq =>
    rw [eq] at ran
    have counted := Answered.count ran (·.envelopeProcessed request.operation.label elapsed true)
    exact counted
  next f after eq =>
    rw [eq] at ran
    have counted := Answered.count ran (·.envelopeProcessed request.operation.label elapsed false)
    exact counted.report agent e.msgId _ f

end Broker

end AgentBroker
