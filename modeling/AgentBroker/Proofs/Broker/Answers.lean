import AgentBroker.Proofs.Broker.Filing
import AgentBroker.Proofs.Broker.Letters

/-!
# Answers

An agent that can be reached gets at most one answer to its envelope: what a search has found, or
what went wrong, if the settings let it know. A letter that arrives brings one message to its
destination. Nobody else gets anything.
-/

namespace AgentBroker

namespace Request

def isSearch : Request → Bool
  | .searchAgents _ | .searchServices _ => true
  | _ => false

def findings? (d : Directory) : Request → Option News
  | .searchAgents s => some (.searchResult s.searchId (d.searchAgents s.query))
  | .searchServices s => some (.searchResult s.searchId (d.searchServices s.query))
  | _ => none

/-- How a request can fail. -/
inductive Fails : Request → Failure → Prop
  | misfit {request : Request} {m : Misfit} (invalid : request.validate = .error m) :
      Fails request (.misfit m)
  | unreachable (letter : Letter) :
      Fails (.sendMessage letter) (.unreachable letter.conversationId letter.destination)
  | breach {letter : Letter} {m : NegotiationMessage} {breach : Breach}
      (body : letter.body = .negotiation m) (about : breach.conversationId = letter.conversationId) :
      Fails (.sendMessage letter) (.breach breach m.msgId)

end Request

/-- What the settings let an agent know about the failure of its request. -/
def Failure.complaint? (s : NotificationSettings) (operation : Operation) : Failure → Option News
  | .misfit _ => some (.error ⟨operation, none, none⟩)
  | .unreachable conversationId destination =>
    if s.routingErrors then some (.undeliverable conversationId destination) else none
  | .breach b msgId =>
    if s.protocolErrors then some (.error ⟨.sendMessage, some b.conversationId, some msgId⟩)
    else none
  | _ => none

/-- The answer to an envelope. It carries the number of the envelope. -/
def Envelope.answer? (e : Envelope) (s : NotificationSettings) (d : Directory)
    (outcome : Except Failure Unit) : Option Notice :=
  (e.request.bind fun request =>
    match outcome with
    | .ok _ => request.findings? d
    | .error f => f.complaint? s request.operation).map (⟨e.msgId, some ·⟩)

namespace Broker

variable {b b' : Broker} {now : Nanos} {sender agent : String} {c : Channel}
  {msgId : UInt32} {posts : List (Channel × Notice)} {request : Request} {f : Failure}
  {notifications : NotificationSettings}

/-- The message that an envelope delivers. -/
def delivered (b : Broker) (sender : String) (e : Envelope) (outcome : Except Failure Unit) :
    List (Channel × Notice) :=
  match e.request, outcome with
  | some (.sendMessage letter), .ok _ =>
    (b.session? letter.destination).toList.map
      (·, .delivery sender letter.conversationId letter.body)
  | _, _ => []

/-- What comes of the envelope of an agent with the mailbox `c`. -/
structure Handled (notifications : NotificationSettings) (b : Broker) (sender : String)
    (c : Channel) (e : Envelope) (outcome : Except Failure Unit) (b' : Broker) : Prop where
  /-- The answer and the message are all that is put into mailboxes. -/
  mail : b'.mailboxes =
    { b.mailboxes with
      waiting := b.mailboxes.waiting ++
        ((e.answer? notifications b.directory outcome).toList.map (c, ·) ++
          b.delivered sender e outcome) }
  arrives : ∀ letter, e.request = some (.sendMessage letter) → outcome = .ok () →
    ∃ c', b.reach? letter.destination = some c'
  fails : ∀ f, outcome = .error f → ∃ request, e.request = some request ∧ request.Fails f
  checked : ∀ request, e.request = some request →
    ∀ m, outcome = .error (.misfit m) ↔ request.validate = .error m
  found : ∀ request, e.request = some request → request.isSearch →
    request.validate = .ok () → outcome = .ok ()
  still : (∀ request, e.request = some request →
    request.isSearch ∨ ∃ m, outcome = .error (.misfit m)) → Still b b'

/-- `b'` is `b` after these posts, and the agent can still be reached. -/
structure Leads (b : Broker) (agent : String) (c : Channel) (posts : List (Channel × Notice))
    (b' : Broker) : Prop where
  mail : b'.mailboxes = { b.mailboxes with waiting := b.mailboxes.waiting ++ posts }
  reached : b'.reach? agent = some c
  notifications : b'.notifications = b.notifications

namespace Leads

theorem refl (reached : b.reach? agent = some c) : Leads b agent c [] b :=
  ⟨by rw [List.append_nil], reached, rfl⟩

theorem count (h : Leads b agent c posts b') (g : Metrics → Metrics) :
    Leads b agent c posts (b'.count g) := ⟨h.mail, h.reached, h.notifications⟩

theorem put (h : Leads b agent c posts b') (c' : Channel) (n : Notice) :
    Leads b agent c (posts ++ [(c', n)]) (b'.put c' n) where
  mail := by rw [Broker.put, h.mail, List.append_assoc]
  reached := h.reached
  notifications := h.notifications

end Leads

theorem countFailure_eq (b : Broker) (f : Failure) : ∃ g, b.countFailure f = b.count g := by
  cases f with
  | breach | misfit => exact ⟨_, rfl⟩
  | _ => exact ⟨id, rfl⟩

theorem report_eq (reached : b.reach? agent = some c) (msgId : UInt32) (operation : Operation)
    (f : Failure) :
    b.report agent msgId operation f =
      match f.complaint? b.notifications operation with
      | some n => (b.countFailure f).put c ⟨msgId, some n⟩
      | none => b.countFailure f := by
  obtain ⟨g, counted⟩ := countFailure_eq b f
  have reached : (b.countFailure f).reach? agent = some c := by
    rw [counted]
    exact reached
  have settings : (b.countFailure f).notifications = b.notifications := by
    rw [counted]
    rfl
  rw [report, settings]
  cases f with
  | misfit m => exact send_of_reach? reached _
  | unreachable conversationId destination =>
    rw [notifies, Failure.complaint?]
    split
    · exact send_of_reach? reached _
    · rfl
  | breach breach number =>
    rw [notifies, Failure.complaint?]
    split
    · exact send_of_reach? reached _
    · rfl
  | _ => rfl

theorem Leads.report (h : Leads b agent c posts b') (msgId : UInt32) (operation : Operation)
    (f : Failure) :
    Leads b agent c
      (posts ++ ((f.complaint? b.notifications operation).map (⟨msgId, some ·⟩)).toList.map (c, ·))
      (b'.report agent msgId operation f) := by
  obtain ⟨g, counted⟩ := countFailure_eq b' f
  rw [report_eq h.reached, h.notifications, counted]
  cases f.complaint? b.notifications operation with
  | some n => exact (h.count g).put c ⟨msgId, some n⟩
  | none =>
    rw [Option.map_none, Option.toList_none, List.map_nil, List.append_nil]
    exact h.count g

/-- How the request of an agent that can be reached can end, and the state in which it leaves the
broker. -/
inductive Running (b : Broker) (now : Nanos) (agent : String) (c : Channel) (msgId : UInt32) :
    Request → Except Failure Unit → Broker → Prop
  | files {request : Request} (filing : request.isFiling) (valid : request.validate = .ok ())
      (directory : Directory) (g : Metrics → Metrics) :
      Running b now agent c msgId request (.ok ()) ({ b with directory }.count g)
  | finds {request : Request} {n : News} (valid : request.validate = .ok ())
      (found : request.findings? b.directory = some n) :
      Running b now agent c msgId request (.ok ()) ((b.count .search).put c ⟨msgId, some n⟩)
  | misfits {request : Request} {m : Misfit} (invalid : request.validate = .error m) :
      Running b now agent c msgId request (.error (.misfit m)) b
  | sends {letter : Letter} {outcome : Except Failure Unit} {b' : Broker}
      (sending : Sending b now agent letter outcome b') :
      Running b now agent c msgId (.sendMessage letter) outcome b'

theorem running_filing (b : Broker) (now : Nanos) (agent : String) (c : Channel) (msgId : UInt32)
    (filing : request.isFiling) :
    Running b now agent c msgId request (b.run now agent msgId request).1
      (b.run now agent msgId request).2 := by
  rcases run_filing b now agent msgId filing with ⟨m, invalid, -, ran⟩ | ⟨valid, g, ran⟩
  · rw [ran]
    exact .misfits invalid
  · obtain ⟨directory, edited⟩ := edit_filing b now agent filing
    rw [ran, edited]
    exact .files filing valid directory g

theorem run_spec (reached : b.reach? agent = some c) (now : Nanos) (msgId : UInt32)
    (request : Request) :
    Running b now agent c msgId request (b.run now agent msgId request).1
      (b.run now agent msgId request).2 := by
  have searching : (b.count .search).reach? agent = some c := reached
  cases request with
  | registerService i => exact running_filing b now agent c msgId rfl
  | unregisterService i => exact running_filing b now agent c msgId rfl
  | registerDescription i => exact running_filing b now agent c msgId rfl
  | unregisterDescription => exact running_filing b now agent c msgId rfl
  | searchAgents s =>
    rw [run, searchAgents, answerSearch_eq]
    cases valid : s.query.validate with
    | error m => exact .misfits valid
    | ok u =>
      dsimp only
      rw [send_of_reach? searching]
      exact .finds valid rfl
  | searchServices s =>
    rw [run, searchServices, answerSearch_eq]
    cases valid : s.query.validate with
    | error m => exact .misfits valid
    | ok u =>
      dsimp only
      rw [send_of_reach? searching]
      exact .finds valid rfl
  | sendMessage letter => exact .sends (sendLetter_spec b now agent letter)

namespace Running

variable {outcome : Except Failure Unit}

theorem leads_ok {u : Unit} (h : Running b now sender c msgId request (.ok u) b')
    (reached : b.reach? sender = some c) :
    Leads b sender c
      (((request.findings? b.directory).map (⟨msgId, some ·⟩)).toList.map (c, ·) ++
        b.delivered sender ⟨msgId, some request⟩ (.ok u)) b' := by
  cases h with
  | @files request filing valid directory g =>
    have unfound : request.findings? b.directory = none := by
      cases request with
      | searchAgents | searchServices => cases filing
      | _ => rfl
    have undelivered : b.delivered sender ⟨msgId, some request⟩ (.ok ()) = [] := by
      cases request with
      | sendMessage => cases filing
      | _ => rfl
    rw [unfound, undelivered]
    exact ⟨(Leads.refl reached).mail, reached, rfl⟩
  | @finds request n valid found =>
    have undelivered : b.delivered sender ⟨msgId, some request⟩ (.ok ()) = [] := by
      cases request with
      | sendMessage => cases found
      | _ => rfl
    rw [found, undelivered, List.append_nil]
    exact ((Leads.refl reached).count .search).put c ⟨msgId, some n⟩
  | @sends letter _ _ sending =>
    cases sending with
    | @arrives c' accepted arrived =>
      have session := (reach?_eq_some.mp arrived).1
      simp only [delivered, Request.findings?, session]
      have noted : Leads b sender c [] { b with ledger := b.ledgerAfter now sender letter } :=
        ⟨(Leads.refl reached).mail, reached, rfl⟩
      exact (noted.put c' (.delivery sender letter.conversationId letter.body)).count .messageRouted

theorem leads_error (h : Running b now sender c msgId request (.error f) b')
    (reached : b.reach? sender = some c) : Leads b sender c [] b' := by
  cases h with
  | misfits invalid => exact .refl reached
  | @sends letter _ _ sending =>
    cases sending with
    | absent gone => exact (Leads.refl reached).count .routingFailed
    | refused => exact .refl reached
    | lost connected accepted unreached =>
      -- whoever can be reached is not the destination, whose mailbox is closed
      have apart : sender ≠ letter.destination := by
        rintro rfl
        cases unreached.symm.trans reached
      refine ⟨(Leads.refl reached).mail, ?_, rfl⟩
      obtain ⟨session, opened⟩ := reach?_eq_some.mp reached
      refine reach?_eq_some.mpr ⟨?_, opened⟩
      exact session?_drop.trans ((if_neg apart).trans session)

theorem fails (h : Running b now sender c msgId request (.error f) b')
    (wellKept : b.ledger.WellKept) : request.Fails f := by
  cases h with
  | misfits invalid => exact .misfit invalid
  | sends sending =>
    cases sending with
    | absent | lost => exact .unreachable _
    | refused connected body judged =>
      exact .breach body (Ledger.observe_eq_error wellKept judged)

theorem arrives {letter : Letter} {u : Unit}
    (h : Running b now sender c msgId (.sendMessage letter) (.ok u) b') :
    ∃ c', b.reach? letter.destination = some c' := by
  cases h with
  | files filing => cases filing
  | finds valid found => cases found
  | sends sending =>
    cases sending with
    | arrives accepted arrived => exact ⟨_, arrived⟩

theorem misfit_iff (h : Running b now sender c msgId request outcome b') (m : Misfit) :
    outcome = .error (.misfit m) ↔ request.validate = .error m := by
  constructor
  · rintro rfl
    cases h with
    | misfits invalid => exact invalid
    | sends sending => cases sending
  · intro invalid
    cases h with
    | files filing valid => cases valid.symm.trans invalid
    | finds valid => cases valid.symm.trans invalid
    | misfits invalid' =>
      cases invalid'.symm.trans invalid
      rfl
    | sends => cases invalid

theorem found (h : Running b now sender c msgId request outcome b') (search : request.isSearch)
    (valid : request.validate = .ok ()) : outcome = .ok () := by
  cases h with
  | files => rfl
  | finds => rfl
  | misfits invalid => cases invalid.symm.trans valid
  | sends => cases search

theorem still (h : Running b now sender c msgId request outcome b')
    (passive : request.isSearch ∨ ∃ m, outcome = .error (.misfit m)) : Still b b' := by
  cases h with
  | @files request filing =>
    rcases passive with search | ⟨m, failed⟩
    · cases request with
      | searchAgents | searchServices => cases filing
      | _ => cases search
    · cases failed
  | finds => exact ⟨rfl, rfl, rfl⟩
  | misfits => exact ⟨rfl, rfl, rfl⟩
  | sends sending =>
    rcases passive with search | ⟨m, rfl⟩
    · cases search
    · cases sending

end Running

theorem Still.count (h : Still b b') (g : Metrics → Metrics) : Still b (b'.count g) :=
  ⟨h.sessions, h.directory, h.ledger⟩

theorem Still.report (h : Still b b') (reached : b'.reach? agent = some c) (msgId : UInt32)
    (operation : Operation) (f : Failure) : Still b (b'.report agent msgId operation f) := by
  obtain ⟨g, counted⟩ := countFailure_eq b' f
  rw [report_eq reached, counted]
  cases f.complaint? b'.notifications operation with
  | some n => exact ⟨h.sessions, h.directory, h.ledger⟩
  | none => exact ⟨h.sessions, h.directory, h.ledger⟩

theorem delivered_error (b : Broker) (sender : String) (e : Envelope) (f : Failure) :
    b.delivered sender e (.error f) = [] := by
  obtain ⟨msgId, request?⟩ := e
  cases request? with
  | none => rfl
  | some request => cases request <;> rfl

theorem handled_empty (b : Broker) (sender : String) (c : Channel) (msgId : UInt32) :
    Handled b.notifications b sender c ⟨msgId, none⟩ (.ok ()) (b.count .decodeError) where
  mail := by simp [Envelope.answer?, delivered, Broker.count]
  arrives _ asks := nomatch asks
  fails _ failed := nomatch failed
  checked _ asks := nomatch asks
  found _ asks := nomatch asks
  still _ := ⟨rfl, rfl, rfl⟩

theorem Running.handled {outcome : Except Failure Unit} {ran : Broker}
    (h : Running b now sender c msgId request outcome ran) (wellKept : b.ledger.WellKept)
    (mail : Leads b sender c
      (((⟨msgId, some request⟩ : Envelope).answer? b.notifications b.directory outcome).toList.map
        (c, ·) ++ b.delivered sender ⟨msgId, some request⟩ outcome) b')
    (still : Still b ran → Still b b') :
    Handled b.notifications b sender c ⟨msgId, some request⟩ outcome b' where
  mail := mail.mail
  arrives := by
    rintro letter asks rfl
    cases asks
    exact h.arrives
  fails := by
    rintro f rfl
    exact ⟨request, rfl, h.fails wellKept⟩
  checked := by
    intro request' asks m
    cases asks
    exact h.misfit_iff m
  found := by
    intro request' asks search valid
    cases asks
    exact h.found search valid
  still passive := still (h.still (passive request rfl))

theorem dispatch_handled (reached : b.reach? sender = some c) (wellKept : b.ledger.WellKept)
    (now elapsed : Nanos) (e : Envelope) :
    Handled b.notifications b sender c e (b.dispatch now elapsed sender e).1
      (b.dispatch now elapsed sender e).2 := by
  obtain ⟨msgId, request?⟩ := e
  cases request? with
  | none => exact handled_empty b sender c msgId
  | some request =>
    have running := run_spec reached now msgId request
    rw [dispatch]
    dsimp only
    cases ran : b.run now sender msgId request with
    | mk outcome after =>
      rw [ran] at running
      dsimp only at running
      cases outcome with
      | ok u =>
        have led := (running.leads_ok reached).count
          (·.envelopeProcessed request.operation.label elapsed true)
        exact running.handled wellKept led fun same =>
          same.count (·.envelopeProcessed request.operation.label elapsed true)
      | error f =>
        have led := (running.leads_error reached).count
          (·.envelopeProcessed request.operation.label elapsed false)
        refine running.handled wellKept ?_ fun same =>
          (same.count (·.envelopeProcessed request.operation.label elapsed false)).report
            led.reached msgId request.operation f
        rw [delivered_error, List.append_nil]
        exact led.report msgId request.operation f

theorem notifications_after (b : Broker) (e : Event) : (b.after e).notifications = b.notifications := by
  cases e with
  | command now elapsed awaited c =>
    have effect := apply_effect b now elapsed awaited c
    rw [after]
    generalize (b.apply now elapsed awaited c).2 = b' at effect ⊢
    cases effect with
    | admits fresh => rfl
    | @serves agent _ request _ connected asks answered =>
      obtain ⟨answers, rest, -⟩ := answered
      obtain ⟨directory, ledger, edited⟩ := edit_frame b now agent request
      rw [rest.notifications, edited]
    | keeps rest => exact rest.notifications
  | _ => rfl

theorem notifications_replay (notifications : NotificationSettings) (events : List Event) :
    (replay notifications events).notifications = notifications :=
  Run.last_induction (P := fun b => b.notifications = notifications)
    (fun b e same => (notifications_after b e).trans same) _ rfl events

/-- An agent that can be reached gets what it has searched for, or hears of the failure of its
request as far as the settings allow, and a letter that is sent arrives. Nothing else is sent.
Searches, empty envelopes and what does not fit change nothing. -/
theorem dispatch_answers (h : Reachable notifications b) (reached : b.reach? sender = some c)
    (now elapsed : Nanos) (e : Envelope) :
    Handled notifications b sender c e (b.dispatch now elapsed sender e).1
      (b.dispatch now elapsed sender e).2 := by
  obtain ⟨events, rfl⟩ := reachable_iff.mp h
  have handled := dispatch_handled reached (wellKept_replay notifications events) now elapsed e
  rwa [notifications_replay] at handled

/-- The letter finds its destination gone, and the sender is told. -/
theorem dispatch_answers_undeliverable :
    let notifications : NotificationSettings := ⟨true, false⟩
    let b := replay notifications [.command 0 0 true (.connect "buyer" 0 0),
      .command 0 0 true (.connect "seller" 1 1), .close 1]
    let e : Envelope := ⟨7, some (.sendMessage ⟨"sale", "seller", .text "hello"⟩)⟩
    b.reach? "buyer" = some 0 ∧
      Handled notifications b "buyer" 0 e (b.dispatch 0 0 "buyer" e).1
        (b.dispatch 0 0 "buyer" e).2 ∧
      ((b.dispatch 0 0 "buyer" e).2.mailboxes.contents 0).map (·.answerId) = [7] := by
  intro notifications b e
  have reached : b.reach? "buyer" = some 0 := by decide +kernel
  have handled := dispatch_answers (reachable_iff.mpr ⟨_, rfl⟩ : Reachable notifications b) reached
    0 0 e
  exact ⟨reached, handled, by decide +kernel⟩

end Broker

end AgentBroker
