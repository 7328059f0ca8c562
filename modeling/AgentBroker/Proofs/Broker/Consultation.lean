import AgentBroker.Proofs.Broker.Closing
import AgentBroker.Proofs.Negotiation.Standing

/-!
# What events ask of the ledger

A command asks the ledger at most one thing: to judge a negotiation message between two connected
agents, or to forget what has been idle for too long. Besides that, the ledger only loses what
belongs to agents that are no longer connected. So the messages accepted under an id over any run of
the broker are one thread.
-/

namespace AgentBroker

open Ledger

def Envelope.posting? (sender : String) (e : Envelope) : Option (String × Posting) :=
  match e.request with
  | some (.sendMessage ⟨id, destination, .negotiation m⟩) => some (id, ⟨sender, destination, m⟩)
  | _ => none

theorem Envelope.posting?_eq_some {sender id : String} {e : Envelope} {p : Posting} :
    e.posting? sender = some (id, p) ↔
      e.request = some (.sendMessage ⟨id, p.receiver, .negotiation p.message⟩) ∧
        p.sender = sender := by
  constructor
  · intro posting
    rw [posting?] at posting
    split at posting
    next asks =>
      cases posting
      exact ⟨asks, rfl⟩
    · cases posting
  · rintro ⟨asks, rfl⟩
    rw [posting?, asks]

def Command.posting? : Command → Option (String × Posting)
  | .envelope sender e => e.posting? sender
  | _ => none

namespace Broker

variable {b b' b'' : Broker} {now elapsed : Nanos} {agent : String}

/-- What an event asks of the ledger. -/
def consults (b : Broker) : Event → List Ledger.Action
  | .command now _ _ (.envelope sender e) =>
    match e.posting? sender with
    | some (id, p) =>
      if b.isConnected p.sender ∧ b.isConnected p.receiver then
        [.observe now p.sender p.receiver id p.message]
      else []
    | none => []
  | .command now _ _ (.expireIdle maxIdle) => [.expireIdle now maxIdle]
  | _ => []

/-- `b'` is `b` after some agents have lost their sessions, and with them their negotiations. -/
structure Sheds (b b' : Broker) : Prop where
  ledger : ∃ gone : List String,
    b'.ledger = Run.last Ledger.act b.ledger (gone.map .removeAgent) ∧
      ∀ a ∈ gone, ¬ b'.isConnected a
  sessions : ∀ a, b'.isConnected a → b.isConnected a

namespace Sheds

theorem of_eq (ledger : b'.ledger = b.ledger) (sessions : b'.sessions = b.sessions) :
    Sheds b b' where
  ledger := ⟨[], ledger, nofun⟩
  sessions a h := by rwa [isConnected, ← sessions]

theorem refl (b : Broker) : Sheds b b := of_eq rfl rfl

theorem trans (h : Sheds b b') (h' : Sheds b' b'') : Sheds b b'' where
  ledger := by
    obtain ⟨gone, ledger, absent⟩ := h.ledger
    obtain ⟨gone', ledger', absent'⟩ := h'.ledger
    refine ⟨gone ++ gone', ?_, ?_⟩
    · rw [ledger', ledger, List.map_append, Run.last_append]
    · intro a mem
      rcases List.mem_append.mp mem with mem | mem
      · exact mt (h'.sessions a) (absent a mem)
      · exact absent' a mem
  sessions a connected := h.sessions a (h'.sessions a connected)

theorem count (h : Sheds b b') (f : Metrics → Metrics) : Sheds b (b'.count f) :=
  ⟨h.ledger, h.sessions⟩

theorem drop (b : Broker) (agent : String) : Sheds b (b.drop agent) where
  ledger := by
    refine ⟨[agent], rfl, fun a mem connected => ?_⟩
    obtain ⟨c, session⟩ := isConnected_iff.mp connected
    rw [session?_drop, if_pos (List.mem_singleton.mp mem)] at session
    cases session
  sessions a connected := by
    obtain ⟨c, session⟩ := isConnected_iff.mp connected
    rw [session?_drop] at session
    split at session
    · cases session
    · exact isConnected_iff.mpr ⟨c, session⟩

theorem disconnect (b : Broker) (agent : String) : Sheds b (b.disconnect agent).2 := by
  rw [Broker.disconnect]
  split
  · exact drop b agent
  · exact refl b

theorem disconnectSession (b : Broker) (agent : String) (c : Channel) :
    Sheds b (b.disconnectSession agent c).2 := by
  rw [Broker.disconnectSession]
  split
  · exact drop b agent
  · exact refl b

theorem send (b : Broker) (agent : String) (n : Notice) : Sheds b (b.send agent n).2 := by
  rw [send_eq]
  cases b.reach? agent with
  | none => exact disconnect b agent
  | some c => exact of_eq rfl rfl

theorem relay (b : Broker) (receiver : String) (n : Notice) : Sheds b (b.relay receiver n).2 := by
  rw [relay_eq]
  cases b.reach? receiver with
  | none => exact (disconnect b receiver).count _
  | some c => exact of_eq rfl rfl

theorem search (b : Broker) (find : Directory → Query → List String) (q : Query) :
    Sheds b (b.search find q).2 := by
  rw [Broker.search]
  split
  · exact refl b
  · exact of_eq rfl rfl

theorem answerSearch (b : Broker) (find : Directory → Query → List String) (agent : String)
    (msgId : UInt32) (s : Search) :
    Sheds b (Broker.answerSearch agent msgId s (b.search find s.query)).2 := by
  rw [answerSearch_eq]
  cases s.query.validate with
  | error m => exact refl b
  | ok u => exact ((refl b).count .search).trans (send _ agent _)

theorem report (h : Sheds b b') (agent : String) (msgId : UInt32) (operation : Operation)
    (f : Failure) : Sheds b (b'.report agent msgId operation f) := by
  have counted : Sheds b (b'.countFailure f) := by
    cases f <;> first | exact h.count _ | exact h
  rw [Broker.report]
  split
  · split
    · exact counted.trans (send _ agent _)
    · exact counted
  · exact counted

theorem run_filing (b : Broker) (now : Nanos) (agent : String) (msgId : UInt32) {request : Request}
    (filing : request.isFiling) :
    Sheds (b.edit now agent request) (b.run now agent msgId request).2 := by
  rcases Broker.run_filing b now agent msgId filing with ⟨m, -, unchanged, ran⟩ | ⟨-, g, ran⟩
  · rw [unchanged, ran]
    exact refl b
  · rw [ran]
    exact (refl _).count g

theorem run (b : Broker) (now : Nanos) (agent : String) (msgId : UInt32) (request : Request) :
    Sheds (b.edit now agent request) (b.run now agent msgId request).2 := by
  cases request with
  | registerService i => exact run_filing b now agent msgId rfl
  | unregisterService i => exact run_filing b now agent msgId rfl
  | registerDescription i => exact run_filing b now agent msgId rfl
  | unregisterDescription => exact run_filing b now agent msgId rfl
  | searchAgents s => exact answerSearch b _ agent msgId s
  | searchServices s => exact answerSearch b _ agent msgId s
  | sendMessage letter =>
    rw [edit, Broker.run]
    have sending := sendLetter_spec b now agent letter
    generalize (b.sendLetter now agent letter).1 = result,
      (b.sendLetter now agent letter).2 = after at sending ⊢
    cases sending with
    | absent gone =>
      rw [gone]
      exact (refl b).count _
    | refused connected body judged =>
      rw [ledgerAfter_of_refused body judged, ite_self]
      exact refl b
    | lost connected accepted unreached =>
      rw [if_pos connected]
      exact (drop _ letter.destination).count _
    | arrives accepted reached =>
      rw [if_pos (isConnected_of_reach? reached)]
      exact of_eq rfl rfl

theorem dispatch (b : Broker) (now elapsed : Nanos) (agent : String) (e : Envelope)
    {request : Request} (asks : e.request = some request) :
    Sheds (b.edit now agent request) (b.dispatch now elapsed agent e).2 := by
  have ran := run b now agent e.msgId request
  rw [Broker.dispatch, asks]
  dsimp only
  split
  next after eq =>
    rw [eq] at ran
    dsimp only at ran ⊢
    exact ran.count _
  next f after eq =>
    rw [eq] at ran
    dsimp only at ran ⊢
    exact (ran.count _).report agent e.msgId request.operation f

end Sheds

theorem ledger_edit {sender : String} {e : Envelope} {request : Request} (awaited : Bool)
    (connected : b.isConnected sender) (asks : e.request = some request) :
    (b.edit now sender request).ledger =
      Run.last Ledger.act b.ledger
        (b.consults (.command now elapsed awaited (.envelope sender e))) := by
  rw [consults, Envelope.posting?, asks]
  cases request with
  | registerService i =>
    rw [edit]
    split <;> rfl
  | registerDescription i =>
    rw [edit]
    split <;> rfl
  | sendMessage letter =>
    obtain ⟨id, destination, body⟩ := letter
    rw [edit]
    cases body with
    | text t => split <;> rfl
    | negotiation m =>
      dsimp only
      by_cases reached : b.isConnected destination
      · rw [if_pos reached, if_pos ⟨connected, reached⟩, ledgerAfter]
        rfl
      · rw [if_neg reached, if_neg fun both => reached both.2]
        rfl
  | _ => rfl

theorem consults_envelope_of_silent {sender : String} {e : Envelope} (awaited : Bool)
    (silent : b.isConnected sender → e.request = none) :
    b.consults (.command now elapsed awaited (.envelope sender e)) = [] := by
  rw [consults]
  split
  next id p posting =>
    obtain ⟨asks, rfl⟩ := Envelope.posting?_eq_some.mp posting
    refine if_neg fun both => ?_
    cases asks.symm.trans (silent both.1)
  · rfl

theorem sheds_connect (b : Broker) (now elapsed : Nanos) (awaited : Bool) (agent : String)
    (channel : Channel) (ticket : Ticket) :
    Sheds (b.connect agent channel).2
      (b.apply now elapsed awaited (.connect agent channel ticket)).2 := by
  rw [apply]
  cases b.connect agent channel with
  | mk admitted joined =>
    dsimp only
    split
    · exact .disconnect joined agent
    · exact .refl joined

theorem sheds_envelope (b : Broker) (now elapsed : Nanos) (awaited : Bool) (sender : String)
    (e : Envelope) :
    ∃ asked : Broker,
      asked.ledger = Run.last Ledger.act b.ledger
        (b.consults (.command now elapsed awaited (.envelope sender e))) ∧
      Sheds asked (b.apply now elapsed awaited (.envelope sender e)).2 := by
  rw [apply]
  by_cases connected : b.isConnected sender
  · rw [if_pos connected]
    cases asks : e.request with
    | none =>
      rw [consults_envelope_of_silent awaited fun _ => asks, Broker.dispatch, asks]
      exact ⟨b, rfl, (Sheds.refl b).count _⟩
    | some request =>
      exact ⟨_, ledger_edit awaited connected asks, .dispatch b now elapsed sender e asks⟩
  · rw [if_neg connected, consults_envelope_of_silent awaited fun h => absurd h connected]
    exact ⟨b, rfl, .refl b⟩

theorem sheds_after (b : Broker) (e : Event) :
    ∃ asked : Broker,
      asked.ledger = Run.last Ledger.act b.ledger (b.consults e) ∧ Sheds asked (b.after e) := by
  cases e with
  | command now elapsed awaited c =>
    cases c with
    | connect agent channel ticket =>
      refine ⟨_, ?_, sheds_connect b now elapsed awaited agent channel ticket⟩
      rw [connect]
      split <;> rfl
    | disconnect agent => exact ⟨b, rfl, .disconnect b agent⟩
    | disconnectSession agent channel =>
      refine ⟨b, rfl, ?_⟩
      rw [after, apply]
      split
      · exact .disconnectSession b agent channel
      · exact .refl b
    | envelope sender e => exact sheds_envelope b now elapsed awaited sender e
    | send agent n => exact ⟨b, rfl, .send b agent n⟩
    | relay receiver n ticket => exact ⟨b, rfl, .relay b receiver n⟩
    | searchAgents q ticket => exact ⟨b, rfl, .search b _ q⟩
    | searchServices q ticket => exact ⟨b, rfl, .search b _ q⟩
    | expireIdle maxIdle => exact ⟨_, rfl, .refl _⟩
    | stats | sessions | stop => exact ⟨b, rfl, .refl b⟩
  | _ => exact ⟨b, rfl, .of_eq rfl rfl⟩

/-- Behind an event the ledger is what it was asked for, without the agents that are gone. -/
theorem ledger_after (b : Broker) (e : Event) :
    ∃ gone : List String,
      (b.after e).ledger =
        Run.last Ledger.act b.ledger (b.consults e ++ gone.map .removeAgent) ∧
      ∀ a ∈ gone, ¬ (b.after e).isConnected a := by
  obtain ⟨asked, answer, sheds⟩ := sheds_after b e
  obtain ⟨gone, ledger, absent⟩ := sheds.ledger
  exact ⟨gone, by rw [ledger, answer, Run.last_append], absent⟩

theorem consults_cases (b : Broker) (e : Event) :
    b.consults e = [] ∨ ∃ a, b.consults e = [a] := by
  rw [consults.eq_def]
  split
  · split
    · split
      · exact .inr ⟨_, rfl⟩
      · exact .inl rfl
    · exact .inl rfl
  · exact .inr ⟨_, rfl⟩
  · exact .inl rfl

def settled (id : String) (b : Broker) (e : Event) : List Posting :=
  b.ledger.accepted id (b.consults e)

/-- The messages accepted under an id in the course of a run. -/
def thread (id : String) (b : Broker) (events : List Event) : List Posting :=
  Run.log after (settled id) b events

/-- The event makes the ledger forget a conversation that has been idle for too long. -/
def Expires (id : String) (b : Broker) (e : Event) : Prop :=
  ∃ a ∈ b.consults e, b.ledger.Retires id a

variable {id : String} {before : List Posting}

theorem accepted_removeAgent (l : Ledger) (id : String) (gone : List String) :
    l.accepted id (gone.map .removeAgent) = [] := by
  induction gone generalizing l with
  | nil => rfl
  | cons a rest ih => exact ih _

theorem threaded_after (h : b.ledger.Threaded id before) (e : Event) :
    (b.after e).ledger.Threaded id (before ++ b.settled id e) := by
  obtain ⟨gone, ledger, -⟩ := ledger_after b e
  have further := h.run (b.consults e ++ gone.map .removeAgent)
  rwa [← ledger, accepted, Run.log_append, ← accepted, ← accepted, accepted_removeAgent,
    List.append_nil] at further

theorem threaded_run (h : b.ledger.Threaded id before) (events : List Event) :
    (Run.last after b events).ledger.Threaded id (before ++ b.thread id events) := by
  induction events generalizing b before with
  | nil => rwa [thread, Run.log, List.append_nil]
  | cons e rest ih =>
    have later := ih (threaded_after h e)
    rwa [List.append_assoc] at later

theorem threaded_replay (notifications : NotificationSettings) (id : String)
    (events : List Event) :
    (replay notifications events).ledger.Threaded id ((start notifications).thread id events) :=
  @threaded_run (start notifications) id [] (threaded_empty id) events

theorem live_removeAgent {l : Ledger} (h : l.Threaded id before) (live : l.Live id before)
    {gone : List String}
    (apart : ∀ a ∈ gone, ∀ p ∈ before, p.sender ≠ a ∧ p.receiver ≠ a) :
    (Run.last Ledger.act l (gone.map .removeAgent)).Live id before := by
  induction gone generalizing l with
  | nil => exact live
  | cons a rest ih =>
    have kept : ¬ l.Retires id (.removeAgent a) := by
      rintro ⟨n, ongoing, involved⟩
      have party : ∃ p ∈ before, p.sender = a ∨ p.receiver = a := by
        rw [Negotiation.involves_iff] at involved
        cases h.recorded.ongoing n ongoing with
        | called opens =>
          rw [opens.initiator, opens.responder] at involved
          exact ⟨_, List.mem_cons_self, involved⟩
        | proposed opens =>
          rw [opens.initiator, opens.responder] at involved
          exact ⟨_, List.mem_cons_self, involved⟩
      obtain ⟨p, mem, party⟩ := party
      have away := apart a List.mem_cons_self p mem
      exact party.elim away.1 away.2
    have silent : l.posting? id (.removeAgent a) = none := rfl
    have next := Live.act h.wellKept live kept
    have threaded := h.act (.removeAgent a)
    rw [silent, Option.toList_none, List.append_nil] at next threaded
    exact ih threaded next fun a' mem => apart a' (List.mem_cons_of_mem a mem)

theorem live_after (h : b.ledger.Threaded id before) (live : b.ledger.Live id before) {e : Event}
    (unexpired : ¬ b.Expires id e)
    (together : ∀ p ∈ before ++ b.settled id e,
      (b.after e).isConnected p.sender ∧ (b.after e).isConnected p.receiver) :
    (b.after e).ledger.Live id (before ++ b.settled id e) := by
  obtain ⟨gone, ledger, absent⟩ := ledger_after b e
  have asked :
      (Run.last Ledger.act b.ledger (b.consults e)).Live id (before ++ b.settled id e) := by
    rcases b.consults_cases e with none | ⟨a, one⟩
    · rwa [settled, none, accepted, Run.log, List.append_nil]
    · have kept : ¬ b.ledger.Retires id a := fun retires =>
        unexpired ⟨a, one ▸ List.mem_singleton_self a, retires⟩
      have next := Live.act h.wellKept live kept
      rwa [settled, one, accepted, Run.log, Run.log, List.append_nil]
  rw [ledger, Run.last_append]
  refine live_removeAgent (h.run (b.consults e)) asked fun a mem p present => ?_
  have connected := together p present
  exact ⟨fun same => absent a mem (same ▸ connected.1),
    fun same => absent a mem (same ▸ connected.2)⟩

/-- Behind a run of the broker, a conversation whose parties have stayed connected and that has not
expired has had its last move or is ongoing. -/
theorem live_replay (notifications : NotificationSettings) (events : List Event)
    (unexpired : ∀ past e later, events = past ++ e :: later →
      ¬ (replay notifications past).Expires id e)
    (together : ∀ past later, events = past ++ later →
      ∀ p ∈ (start notifications).thread id past,
        (replay notifications past).isConnected p.sender ∧
        (replay notifications past).isConnected p.receiver) :
    (replay notifications events).ledger.Live id ((start notifications).thread id events) := by
  induction events using List.reverseRecOn with
  | nil => exact .inl rfl
  | append_singleton events e ih =>
    have extended (past later : List Event) (split : events = past ++ later) :
        events ++ [e] = past ++ (later ++ [e]) := by rw [split, List.append_assoc]
    have threaded := threaded_replay notifications id events
    have live := ih
      (fun past e' later split => unexpired past e' (later ++ [e]) (extended past _ split))
      (fun past later split => together past _ (extended past later split))
    have whole := together (events ++ [e]) [] (List.append_nil _).symm
    rw [thread, Run.log_concat, replay, Run.last_concat] at whole ⊢
    exact live_after threaded live (unexpired events e [] rfl) whole

end Broker

end AgentBroker
