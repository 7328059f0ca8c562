import AgentBroker.Proofs.Broker.Ownership
import AgentBroker.Proofs.Map

/-!
# What does not concern an agent

A command that does not concern an agent does the same whether or not the agent is connected. As all
that the broker keeps belongs to connected agents, an agent that comes and goes again leaves the
broker as it would have been without it.
-/

namespace AgentBroker

/-- The command names the agent, or it brings a letter to it. -/
def Command.concerns (agent : String) : Command → Bool
  | .connect a _ _ | .disconnect a | .disconnectSession a _ | .send a _ | .relay a _ _ => a == agent
  | .envelope a e =>
    a == agent ||
      match e.request with
      | some (.sendMessage letter) => letter.destination == agent
      | _ => false
  | _ => false

/-- The command admits the agent or ends its session, and does nothing else. -/
def Command.passes (agent : String) : Command → Bool
  | .connect a _ _ | .disconnect a => a == agent
  | _ => false

theorem Directory.removeAgent_eq_self {d : Directory} {agent : String} (lacks : d.Lacks agent) :
    d.removeAgent agent = d := by
  rw [removeAgent, Map.erase_eq_self lacks.1, Map.erase_eq_self lacks.2]

namespace Broker

def Event.concerns (agent : String) : Event → Bool
  | .command _ _ _ c => c.concerns agent
  | _ => false

def Event.passes (agent : String) : Event → Bool
  | .command _ _ _ c => c.passes agent
  | _ => false

/-- `b'` agrees with `b` about all but the session of one agent, and the metrics. -/
structure SameBesides (agent : String) (own : Option Channel) (b b' : Broker) : Prop where
  session : b'.session? agent = own
  sessions : ∀ other, other ≠ agent → b'.session? other = b.session? other
  directory : b'.directory = b.directory
  ledger : b'.ledger = b.ledger
  notifications : b'.notifications = b.notifications
  mailboxes : b'.mailboxes = b.mailboxes

/-- Two outcomes with the same answer, and with brokers that agree besides one agent. -/
structure Alike {α : Type} (agent : String) (own : Option Channel) (x y : α × Broker) : Prop where
  answer : y.1 = x.1
  brokers : SameBesides agent own x.2 y.2

variable {b b' : Broker} {agent other : String} {own : Option Channel} {now elapsed : Nanos}

theorem Alike.mk_eq {α : Type} {x y : α × Broker} (h : Alike agent own x y) :
    ∃ a b b', x = (a, b) ∧ y = (a, b') ∧ SameBesides agent own b b' :=
  ⟨x.1, x.2, y.2, rfl, Prod.ext h.answer rfl, h.brokers⟩

namespace SameBesides

theorem refl (agent : String) (b : Broker) : SameBesides agent (b.session? agent) b b :=
  ⟨rfl, fun _ _ => rfl, rfl, rfl, rfl, rfl⟩

theorem count (h : SameBesides agent own b b') (f g : Metrics → Metrics) :
    SameBesides agent own (b.count f) (b'.count g) :=
  ⟨h.session, h.sessions, h.directory, h.ledger, h.notifications, h.mailboxes⟩

theorem mapMailboxes (h : SameBesides agent own b b') (f : Mailboxes → Mailboxes) :
    SameBesides agent own (b.mapMailboxes f) (b'.mapMailboxes f) :=
  ⟨h.session, h.sessions, h.directory, h.ledger, h.notifications, congrArg f h.mailboxes⟩

theorem withDirectory (h : SameBesides agent own b b') (d : Directory) :
    SameBesides agent own { b with directory := d } { b' with directory := d } :=
  ⟨h.session, h.sessions, rfl, h.ledger, h.notifications, h.mailboxes⟩

theorem withLedger (h : SameBesides agent own b b') (l : Ledger) :
    SameBesides agent own { b with ledger := l } { b' with ledger := l } :=
  ⟨h.session, h.sessions, h.directory, rfl, h.notifications, h.mailboxes⟩

theorem isConnected (h : SameBesides agent own b b') (apart : other ≠ agent) :
    b'.isConnected other = b.isConnected other :=
  isConnected_congr (h.sessions other apart)

theorem drop (h : SameBesides agent own b b') (apart : other ≠ agent) :
    SameBesides agent own (b.drop other) (b'.drop other) where
  session := by
    rw [session?_drop, if_neg apart.symm, h.session]
  sessions a apart := by
    rw [session?_drop, session?_drop, h.sessions a apart]
  directory := congrArg (·.removeAgent other) h.directory
  ledger := congrArg (fun l => (l.removeAgent other).2) h.ledger
  notifications := h.notifications
  mailboxes := h.mailboxes

theorem withSession (h : SameBesides agent own b b') (apart : other ≠ agent) (channel : Channel) :
    SameBesides agent own (b.withSession other channel) (b'.withSession other channel) where
  session := by
    rw [session?_withSession, if_neg apart.symm, h.session]
  sessions a apart := by
    rw [session?_withSession, session?_withSession, h.sessions a apart]
  directory := h.directory
  ledger := h.ledger
  notifications := h.notifications
  mailboxes := h.mailboxes

theorem connect (h : SameBesides agent own b b') (apart : other ≠ agent) (channel : Channel) :
    Alike agent own (b.connect other channel) (b'.connect other channel) := by
  by_cases connected : b.isConnected other
  · have connected' : b'.isConnected other := (h.isConnected apart).trans connected
    rw [Broker.connect, Broker.connect, if_pos connected, if_pos connected']
    exact ⟨rfl, h.count _ _⟩
  · have fresh : ¬ b'.isConnected other := by rwa [h.isConnected apart]
    rw [connect_eq connected, connect_eq fresh]
    exact ⟨rfl, h.withSession apart channel⟩

theorem disconnect (h : SameBesides agent own b b') (apart : other ≠ agent) :
    Alike agent own (b.disconnect other) (b'.disconnect other) := by
  rw [Broker.disconnect, Broker.disconnect, h.isConnected apart]
  split
  · exact ⟨rfl, h.drop apart⟩
  · exact ⟨rfl, h⟩

theorem disconnectSession (h : SameBesides agent own b b') (apart : other ≠ agent)
    (channel : Channel) :
    Alike agent own (b.disconnectSession other channel) (b'.disconnectSession other channel) := by
  rw [Broker.disconnectSession, Broker.disconnectSession, h.sessions other apart]
  split
  · exact ⟨rfl, h.drop apart⟩
  · exact ⟨rfl, h⟩

theorem send (h : SameBesides agent own b b') (apart : other ≠ agent) (n : Notice) :
    Alike agent own (b.send other n) (b'.send other n) := by
  rw [Broker.send, Broker.send, h.sessions other apart, h.mailboxes]
  cases b.session? other with
  | none => exact ⟨rfl, h⟩
  | some channel =>
    dsimp only
    cases b.mailboxes.put? channel n with
    | some m => exact ⟨rfl, h.session, h.sessions, h.directory, h.ledger, h.notifications, rfl⟩
    | none => exact ⟨rfl, (h.disconnect apart).brokers⟩

theorem relay (h : SameBesides agent own b b') (apart : other ≠ agent) (n : Notice) :
    Alike agent own (b.relay other n) (b'.relay other n) := by
  obtain ⟨ok, x, x', sent, sent', same⟩ := (h.send apart n).mk_eq
  rw [Broker.relay, Broker.relay, sent, sent']
  cases ok with
  | true => exact ⟨rfl, same.count _ _⟩
  | false => exact ⟨rfl, same.count _ _⟩

theorem register (h : SameBesides agent own b b') (sender : String) (i : Instance) :
    Alike agent own (b.registerService sender i) (b'.registerService sender i) := by
  rw [registerService, registerService, h.directory]
  cases i.validate with
  | error m => exact ⟨rfl, h⟩
  | ok u => exact ⟨rfl, (h.withDirectory _).count _ _⟩

theorem describe (h : SameBesides agent own b b') (sender : String) (i : Instance) :
    Alike agent own (b.registerDescription sender i) (b'.registerDescription sender i) := by
  rw [registerDescription, registerDescription, h.directory]
  cases i.validate with
  | error m => exact ⟨rfl, h⟩
  | ok u => exact ⟨rfl, (h.withDirectory _).count _ _⟩

theorem unregister (h : SameBesides agent own b b') (sender : String) (i : Instance) :
    SameBesides agent own (b.unregisterService sender i) (b'.unregisterService sender i) := by
  rw [unregisterService, unregisterService, h.directory]
  obtain ⟨found, d⟩ := b.directory.unregister sender i
  cases found with
  | true => exact (h.withDirectory d).count _ _
  | false => exact h.withDirectory d

theorem undescribe (h : SameBesides agent own b b') (sender : String) :
    SameBesides agent own (b.unregisterDescription sender) (b'.unregisterDescription sender) := by
  rw [unregisterDescription, unregisterDescription, h.directory]
  obtain ⟨found, d⟩ := b.directory.undescribe sender
  cases found with
  | true => exact (h.withDirectory d).count _ _
  | false => exact h.withDirectory d

theorem search (h : SameBesides agent own b b') (find : Directory → Query → List String)
    (q : Query) :
    Alike agent own (b.search find q) (b'.search find q) := by
  rw [Broker.search, Broker.search, h.directory]
  cases q.validate with
  | error m => exact ⟨rfl, h⟩
  | ok u => exact ⟨rfl, h.count _ _⟩

theorem answerSearch {sender : String} {x y : Except Failure (List String) × Broker}
    (h : Alike agent own x y) (apart : sender ≠ agent) (msgId : UInt32) (s : Search) :
    Alike agent own (Broker.answerSearch sender msgId s x)
      (Broker.answerSearch sender msgId s y) := by
  obtain ⟨found, x, x', rfl, rfl, same⟩ := h.mk_eq
  cases found with
  | error f => exact ⟨rfl, same⟩
  | ok agents => exact ⟨rfl, (same.send apart _).brokers⟩

theorem observe (h : SameBesides agent own b b') (now : Nanos) (sender : String) (letter : Letter) :
    (∃ f, b.observe now sender letter = .error f ∧ b'.observe now sender letter = .error f) ∨
    ∃ x x', b.observe now sender letter = .ok x ∧ b'.observe now sender letter = .ok x' ∧
      SameBesides agent own x x' := by
  rw [Broker.observe, Broker.observe, h.ledger]
  cases letter.body with
  | text t => exact .inr ⟨b, b', rfl, rfl, h⟩
  | negotiation m =>
    dsimp only
    cases b.ledger.observe now sender letter.destination letter.conversationId m with
    | error breach => exact .inl ⟨_, rfl, rfl⟩
    | ok found => exact .inr ⟨_, _, rfl, rfl, h.withLedger found.2⟩

theorem sendLetter (h : SameBesides agent own b b') (now : Nanos) (sender : String)
    {letter : Letter} (apart : letter.destination ≠ agent) :
    Alike agent own (b.sendLetter now sender letter) (b'.sendLetter now sender letter) := by
  rw [Broker.sendLetter, Broker.sendLetter, h.isConnected apart]
  split
  · obtain ⟨f, judged, judged'⟩ | ⟨x, x', judged, judged', same⟩ := h.observe now sender letter
    · rw [judged, judged']
      exact ⟨rfl, h⟩
    · obtain ⟨ok, y, y', sent, sent', same⟩ :=
        (same.relay apart (.delivery sender letter.conversationId letter.body)).mk_eq
      rw [judged, judged']
      dsimp only
      rw [sent, sent']
      cases ok with
      | true => exact ⟨rfl, same⟩
      | false => exact ⟨rfl, same⟩
  · exact ⟨rfl, h.count _ _⟩

theorem run (h : SameBesides agent own b b') (now : Nanos) {sender : String}
    (apart : sender ≠ agent) (msgId : UInt32) (request : Request)
    (elsewhere : ∀ letter, request = .sendMessage letter → letter.destination ≠ agent) :
    Alike agent own (b.run now sender msgId request) (b'.run now sender msgId request) := by
  cases request with
  | registerService i => exact h.register sender i
  | unregisterService i => exact ⟨rfl, h.unregister sender i⟩
  | registerDescription i => exact h.describe sender i
  | unregisterDescription => exact ⟨rfl, h.undescribe sender⟩
  | searchAgents s => exact answerSearch (h.search _ s.query) apart msgId s
  | searchServices s => exact answerSearch (h.search _ s.query) apart msgId s
  | sendMessage letter => exact h.sendLetter now sender (elsewhere letter rfl)

theorem countFailure (h : SameBesides agent own b b') (f : Failure) :
    SameBesides agent own (b.countFailure f) (b'.countFailure f) := by
  cases f with
  | breach | misfit => exact h.count _ _
  | _ => exact h

theorem report (h : SameBesides agent own b b') {sender : String} (apart : sender ≠ agent)
    (msgId : UInt32) (operation : Operation) (f : Failure) :
    SameBesides agent own (b.report sender msgId operation f)
      (b'.report sender msgId operation f) := by
  have counted := h.countFailure f
  rw [Broker.report, Broker.report, counted.notifications]
  split
  · cases f.notice? operation with
    | none => exact counted
    | some n => exact (counted.send apart _).brokers
  · exact counted

theorem dispatch (h : SameBesides agent own b b') (now elapsed : Nanos) {sender : String}
    (apart : sender ≠ agent) {e : Envelope}
    (elsewhere : ∀ letter, e.request = some (.sendMessage letter) → letter.destination ≠ agent) :
    SameBesides agent own (b.dispatch now elapsed sender e).2
      (b'.dispatch now elapsed sender e).2 := by
  rw [Broker.dispatch, Broker.dispatch]
  cases asks : e.request with
  | none => exact h.count _ _
  | some request =>
    have apart' (letter : Letter) (same : request = .sendMessage letter) :
        letter.destination ≠ agent := elsewhere letter (by rw [asks, same])
    obtain ⟨outcome, x, x', ran, ran', same⟩ := (h.run now apart e.msgId request apart').mk_eq
    dsimp only
    rw [ran, ran']
    cases outcome with
    | ok u =>
      dsimp only
      exact same.count _ _
    | error f =>
      dsimp only
      exact (same.count _ _).report apart e.msgId request.operation f

theorem expireIdle (h : SameBesides agent own b b') (now maxIdle : Nanos) :
    SameBesides agent own (b.expireIdle now maxIdle).2 (b'.expireIdle now maxIdle).2 := by
  rw [Broker.expireIdle, Broker.expireIdle, h.ledger]
  obtain ⟨ids, l⟩ := b.ledger.expireIdle now maxIdle
  dsimp only
  exact (h.withLedger l).count _ _

end SameBesides

theorem canWrite_of_session? {channel : Channel} (session : b.session? agent = some channel) :
    b.canWrite channel := by
  have mem : channel ∈ b.sessions.values := Map.mem_values.mpr ⟨agent, session⟩
  simp [canWrite, mem]

theorem apply_disconnectSession (b : Broker) (now elapsed : Nanos) (awaited : Bool)
    (channel : Channel) :
    (b.apply now elapsed awaited (.disconnectSession other channel)).2 =
      (b.disconnectSession other channel).2 := by
  rw [apply]
  split
  · rfl
  next silent =>
    have absent : b.session? other ≠ some channel := fun session =>
      silent (canWrite_of_session? session)
    rw [disconnectSession, if_neg absent]

theorem SameBesides.apply (h : SameBesides agent own b b') (now elapsed : Nanos) (awaited : Bool)
    {c : Command} (elsewhere : c.concerns agent = false) :
    SameBesides agent own (b.apply now elapsed awaited c).2 (b'.apply now elapsed awaited c).2 := by
  cases c with
  | connect other channel ticket =>
    have apart : other ≠ agent := by simpa [Command.concerns] using elsewhere
    obtain ⟨admitted, x, x', connected, connected', same⟩ := (h.connect apart channel).mk_eq
    rw [Broker.apply, Broker.apply, connected, connected']
    dsimp only
    -- Where nobody waits for the reply, the new session ends at once.
    split
    · exact (same.disconnect apart).brokers
    · exact same
  | disconnect other =>
    have apart : other ≠ agent := by simpa [Command.concerns] using elsewhere
    exact (h.disconnect apart).brokers
  | disconnectSession other channel =>
    have apart : other ≠ agent := by simpa [Command.concerns] using elsewhere
    rw [apply_disconnectSession, apply_disconnectSession]
    exact (h.disconnectSession apart channel).brokers
  | envelope sender e =>
    rw [Command.concerns, Bool.or_eq_false_iff] at elsewhere
    obtain ⟨sender_ne, letters⟩ := elsewhere
    have apart : sender ≠ agent := by simpa using sender_ne
    have apart' (letter : Letter) (asks : e.request = some (.sendMessage letter)) :
        letter.destination ≠ agent := by
      rw [asks] at letters
      simpa using letters
    rw [Broker.apply, Broker.apply, h.isConnected apart]
    split
    · exact h.dispatch now elapsed apart apart'
    · exact h
  | send other n =>
    have apart : other ≠ agent := by simpa [Command.concerns] using elsewhere
    exact (h.send apart n).brokers
  | relay other n ticket =>
    have apart : other ≠ agent := by simpa [Command.concerns] using elsewhere
    exact (h.relay apart n).brokers
  | searchAgents q ticket => exact (h.search _ q).brokers
  | searchServices q ticket => exact (h.search _ q).brokers
  | stats ticket => exact h
  | sessions ticket => exact h
  | expireIdle maxIdle => exact h.expireIdle now maxIdle
  | stop => exact h

theorem SameBesides.after (h : SameBesides agent own b b') {e : Event}
    (elsewhere : e.concerns agent = false) : SameBesides agent own (b.after e) (b'.after e) := by
  cases e with
  | command now elapsed awaited c => exact h.apply now elapsed awaited elsewhere
  | close c => exact h.mapMailboxes (·.close c)
  | hold c => exact h.mapMailboxes (·.hold c)
  | release c => exact h.mapMailboxes (·.release c)
  | take c => exact h.mapMailboxes fun m => (m.take c).2
  | takeFirst c => exact h.mapMailboxes fun m => ((m.takeFirst? c).map (·.2)).getD m

theorem SameBesides.last (h : SameBesides agent own b b') {events : List Event}
    (elsewhere : ∀ e ∈ events, e.concerns agent = false) :
    SameBesides agent own (Run.last Broker.after b events) (Run.last Broker.after b' events) := by
  induction events generalizing b b' with
  | nil => exact h
  | cons e rest ih =>
    obtain ⟨first, later⟩ := List.forall_mem_cons.mp elsewhere
    exact ih (h.after first) later

theorem session?_after_apart (b : Broker) {e : Event} (elsewhere : e.concerns agent = false) :
    (b.after e).session? agent = b.session? agent :=
  ((SameBesides.refl agent b).after elsewhere).session

theorem session?_disconnect (b : Broker) (agent : String) :
    (b.disconnect agent).2.session? agent = none := by
  rw [disconnect]
  split
  · rw [session?_drop, if_pos rfl]
  next absent => exact session?_eq_none_iff.mpr (Bool.eq_false_iff.mpr absent)

theorem Coherent.removeAgent_ledger (h : b.Coherent) (gone : b.isConnected agent = false) :
    (b.ledger.removeAgent agent).2 = b.ledger := by
  have none : b.ledger.idsWhere (·.involves agent) = [] := by
    refine List.eq_nil_iff_forall_not_mem.mpr fun id mem => ?_
    obtain ⟨n, ongoing, involved⟩ := Ledger.mem_idsWhere _ |>.mp mem
    obtain ⟨initiator, responder⟩ := h.negotiating id n ongoing
    rcases Negotiation.involves_iff.mp involved with rfl | rfl
    · rw [gone] at initiator
      cases initiator
    · rw [gone] at responder
      cases responder
  rw [Ledger.removeAgent, none]
  rfl

theorem SameBesides.drop_own (h : SameBesides agent own b b') (coherent : b.Coherent)
    (gone : b.isConnected agent = false) : SameBesides agent none b (b'.drop agent) where
  session := by
    rw [session?_drop, if_pos rfl]
  sessions other apart := by
    rw [session?_drop, if_neg apart, h.sessions other apart]
  directory := by
    change b'.directory.removeAgent agent = b.directory
    rw [h.directory, Directory.removeAgent_eq_self (coherent.lacks gone)]
  ledger := by
    change (b'.ledger.removeAgent agent).2 = b.ledger
    rw [h.ledger, coherent.removeAgent_ledger gone]
  notifications := h.notifications
  mailboxes := h.mailboxes

theorem SameBesides.disconnect_own (h : SameBesides agent own b b') (coherent : b.Coherent)
    (gone : b.isConnected agent = false) : SameBesides agent none b (b'.disconnect agent).2 := by
  rw [Broker.disconnect]
  split
  · exact h.drop_own coherent gone
  next absent =>
    have none := session?_eq_none_iff.mpr (Bool.eq_false_iff.mpr absent)
    rw [h.session] at none
    rwa [none] at h

theorem SameBesides.connect_own (h : SameBesides agent own b b') (channel : Channel) :
    ∃ own', SameBesides agent own' b (b'.connect agent channel).2 := by
  by_cases connected : b'.isConnected agent
  · rw [Broker.connect, if_pos connected]
    exact ⟨own, h.session, h.sessions, h.directory, h.ledger, h.notifications, h.mailboxes⟩
  · rw [connect_eq connected]
    refine ⟨some channel, ?_, ?_, h.directory, h.ledger, h.notifications, h.mailboxes⟩
    · rw [session?_withSession, if_pos rfl]
    · intro other apart
      rw [session?_withSession, if_neg apart, h.sessions other apart]

/-- That an agent comes or goes makes no difference to the others. -/
theorem SameBesides.after_own (h : SameBesides agent own b b') (coherent : b.Coherent)
    (gone : b.isConnected agent = false) {e : Event} (passes : e.passes agent) :
    ∃ own', SameBesides agent own' b (b'.after e) := by
  cases e with
  | command now elapsed awaited c =>
    cases c with
    | connect other channel ticket =>
      cases eq_of_beq passes
      obtain ⟨own', came⟩ := h.connect_own channel
      rw [Broker.after, Broker.apply]
      dsimp only
      split
      · exact ⟨none, came.disconnect_own coherent gone⟩
      · exact ⟨own', came⟩
    | disconnect other =>
      cases eq_of_beq passes
      exact ⟨none, h.disconnect_own coherent gone⟩
    | _ => cases passes
  | _ => cases passes

/-- `alone` is the broker as it would be if the agent had never come. -/
structure Without (agent : String) (alone b : Broker) : Prop where
  same : ∃ own, SameBesides agent own alone b
  coherent : alone.Coherent
  absent : alone.session? agent = none

namespace Without

variable {alone : Broker} {e : Event}

theorem refl (coherent : b.Coherent) (absent : b.session? agent = none) : Without agent b b :=
  ⟨⟨_, .refl agent b⟩, coherent, absent⟩

theorem count (h : Without agent alone b) (f : Metrics → Metrics) :
    Without agent alone (b.count f) := by
  obtain ⟨⟨own, same⟩, coherent, absent⟩ := h
  exact ⟨⟨own, same.count id f⟩, coherent, absent⟩

theorem after (h : Without agent alone b) (elsewhere : e.concerns agent = false) :
    Without agent (alone.after e) (b.after e) := by
  obtain ⟨⟨own, same⟩, coherent, absent⟩ := h
  refine ⟨⟨own, same.after elsewhere⟩, coherent.after e, ?_⟩
  rw [session?_after_apart alone elsewhere, absent]

theorem after_own (h : Without agent alone b) (passes : e.passes agent) :
    Without agent alone (b.after e) := by
  obtain ⟨⟨own, same⟩, coherent, absent⟩ := h
  exact ⟨same.after_own coherent (session?_eq_none_iff.mp absent) passes, coherent, absent⟩

theorem last (h : Without agent alone b) {events : List Event}
    (apart : ∀ e ∈ events, e.concerns agent = false ∨ e.passes agent) :
    Without agent (Run.last Broker.after alone (events.filter fun e => !e.concerns agent))
      (Run.last Broker.after b events) := by
  induction events generalizing alone b with
  | nil => exact h
  | cons e rest ih =>
    obtain ⟨first, later⟩ := List.forall_mem_cons.mp apart
    by_cases concerns : e.concerns agent
    · have passes : e.passes agent := first.resolve_left (by simp [concerns])
      rw [List.filter_cons_of_neg (by simp [concerns])]
      exact ih (h.after_own passes) later
    · rw [Bool.not_eq_true] at concerns
      rw [List.filter_cons_of_pos (by simp [concerns])]
      exact ih (h.after concerns) later

theorem eq_of_absent (h : Without agent alone b) (gone : b.session? agent = none) :
    b.sessions = alone.sessions ∧ b.directory = alone.directory ∧ b.ledger = alone.ledger := by
  obtain ⟨⟨own, same⟩, coherent, absent⟩ := h
  refine ⟨?_, same.directory, same.ledger⟩
  apply Std.ExtTreeMap.ext_getElem?
  intro other
  by_cases self : other = agent
  · rw [self]
    exact gone.trans absent.symm
  · exact same.sessions other self

end Without

end Broker

end AgentBroker
