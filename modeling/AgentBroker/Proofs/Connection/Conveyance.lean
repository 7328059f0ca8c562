import AgentBroker.Connection.Session
import AgentBroker.Proofs.Broker.Closing
import AgentBroker.Proofs.Broker.Delivery
import AgentBroker.Proofs.Frame.Decomposition
import AgentBroker.Proofs.Wire.RoundTrip
import AgentBroker.Proofs.Wire.Size

/-!
# Letters on their way

A letter comes in a frame and goes out in another one, which names where it comes from. So it can
outgrow the limit that it was read under. The session that would have to write it ends then.
-/

namespace AgentBroker

open AgentBroker.Frame Wire

namespace Broker

variable {b : Broker} {now elapsed : Nanos} {awaited : Bool} {sender : String} {e : Envelope}
  {letter : Letter} {channel : Channel}

theorem delivered_eq (connected : b.isConnected sender)
    (asks : e.request = some (.sendMessage letter)) (accepted : b.accepts now sender letter)
    (reached : b.reach? letter.destination = some channel) :
    (b.posted (.command now elapsed awaited (.envelope sender e))).filter (·.2.isDelivery) =
      [(channel, .delivery sender letter.conversationId letter.body)] := by
  obtain ⟨answers, rest, silent⟩ := b.dispatch_answered now elapsed sender e asks
  have posts : b.deliveries now sender (.sendMessage letter) =
      [(channel, .delivery sender letter.conversationId letter.body)] := by
    rw [deliveries, if_pos accepted, reached]
    rfl
  have none : answers.filter (·.2.isDelivery) = [] :=
    List.filter_eq_nil_iff.mpr fun p mem => by simp [silent p mem]
  rw [posted, apply_envelope connected, rest.mail, mailboxes_edit, List.drop_left, posts,
    List.filter_append, none]
  rfl

end Broker

namespace Session

variable {s : Session} {t : Timeline} {max : Nat} {n : Notice}

theorem frames_allowed (allowed : Allowed max (encode n)) (ns : List Notice) :
    frames max (n :: ns) = (framed (encode n) :: (frames max ns).1, (frames max ns).2) := by
  rw [frames, write?_eq_ok allowed]

theorem frames_fails {ns : List Notice} (mem : n ∈ ns) (above : ¬ Allowed max (encode n)) :
    (frames max ns).2 = true := by
  induction ns with
  | nil => cases mem
  | cons m ns ih =>
    by_cases allowed : Allowed max (encode m)
    · have later : n ∈ ns := by
        rcases List.mem_cons.mp mem with rfl | later
        · exact absurd allowed above
        · exact later
      rw [frames_allowed allowed]
      exact ih later
    · rw [frames, write?_eq_error allowed]

theorem write_fails (isOpen : s.isOpen) (waits : (s.channel, n) ∈ t.broker.mailboxes.waiting)
    (above : ¬ Allowed s.maxFrame (encode n)) :
    (s.write t).2 = ({ s with isOpen := false },
      ((t.mapMailboxes fun m => (m.take s.channel).2).enqueue
        (.disconnectSession s.agent s.channel)).2) := by
  have mem : n ∈ t.broker.mailboxes.contents s.channel :=
    List.mem_map.mpr ⟨_, List.mem_filter.mpr ⟨waits, beq_self_eq_true _⟩, rfl⟩
  have fails := frames_fails mem above
  rw [write, if_pos isOpen]
  dsimp only [Mailboxes.take]
  rw [fails, Bool.true_or, if_pos rfl, close, if_pos isOpen]
  rfl

theorem takeFrame_envelope {body : Bytes} {e : Envelope} (isOpen : s.isOpen)
    (running : t.scheduler.isStopped = false) (typed : decode? body = some e) :
    s.takeFrame t body = (s, (t.enqueue (.envelope s.agent e)).2) := by
  have taken : t.enqueue (.envelope s.agent e) = (true, { t with scheduler :=
      { t.scheduler with queue := t.scheduler.queue ++ [.envelope s.agent e] } }) := by
    rw [Timeline.enqueue, Scheduler.enqueue?, if_neg (Bool.eq_false_iff.mp running)]
  rw [takeFrame, if_pos isOpen, typed]
  dsimp only
  rw [taken]

end Session

/-- What becomes of a letter that the broker accepts. -/
structure Conveyed (s : Session) (t : Timeline) (body : Bytes) (e : Envelope) (letter : Letter)
    (channel : Channel) (posts : List (Channel × Notice)) (n : Notice) : Prop where
  submitted : s.takeFrame t body = (s, (t.enqueue (.envelope s.agent e)).2)
  delivered : posts.filter (·.2.isDelivery) = [(channel, n)]
  notice : n = .delivery s.agent letter.conversationId letter.body
  /-- It names its origin instead of its destination, and it is not numbered. -/
  length : (encode n).length + (size letter.destination + size e.msgId + 6) =
    (encode e).length + size s.agent
  /-- It is small enough if it was not spelled shorter than the broker spells it, and if the name of
  its origin is not too long. -/
  fits : (encode e).length ≤ body.length →
    size s.agent ≤ size letter.destination + size e.msgId + 6 → Allowed s.maxFrame (encode n)
  fits_agents : (encode e).length ≤ body.length → isAgentId s.agent → isAgentId letter.destination →
    s.agent.length ≤ letter.destination.length + 7 → Allowed s.maxFrame (encode n)
  passes : Allowed s.maxFrame (encode n) → ∀ ns, Session.frames s.maxFrame (n :: ns) =
    (framed (encode n) :: (Session.frames s.maxFrame ns).1, (Session.frames s.maxFrame ns).2)
  /-- Otherwise the session of its receiver ends. -/
  breaks : ¬ Allowed s.maxFrame (encode n) → ∀ (s' : Session) (t' : Timeline), s'.isOpen →
    s'.maxFrame = s.maxFrame → s'.channel = channel → (channel, n) ∈ t'.broker.mailboxes.waiting →
    (s'.write t').2 = ({ s' with isOpen := false },
      ((t'.mapMailboxes fun m => (m.take channel).2).enqueue
        (.disconnectSession s'.agent channel)).2)

theorem conveyed {s : Session} {t : Timeline} {body : Bytes} {e : Envelope} {letter : Letter}
    {b : Broker} {now elapsed : Nanos} {awaited : Bool} {channel : Channel} (isOpen : s.isOpen)
    (running : t.scheduler.isStopped = false) (came : Allowed s.maxFrame body)
    (typed : decode? body = some e) (asks : e.request = some (.sendMessage letter))
    (connected : b.isConnected s.agent) (accepted : b.accepts now s.agent letter)
    (reached : b.reach? letter.destination = some channel) :
    Conveyed s t body e letter channel
      (b.posted (.command now elapsed awaited (.envelope s.agent e)))
      (.delivery s.agent letter.conversationId letter.body) := by
  have grows : size (Notice.delivery s.agent letter.conversationId letter.body) +
      (size letter.destination + size e.msgId + 6) = size e + size s.agent := by
    have passedOn := size_passedOn s.agent e.msgId letter
    rwa [← asks] at passedOn
  have fits (spelled : (encode e).length ≤ body.length)
      (short : size s.agent ≤ size letter.destination + size e.msgId + 6) :
      Allowed s.maxFrame (encode (Notice.delivery s.agent letter.conversationId letter.body)) := by
    have le := came.le_max
    have fits := came.fits
    rw [length_encode] at spelled
    constructor
    · rw [length_encode]
      omega
    · rw [length_encode]
      omega
  constructor
  case submitted => exact Session.takeFrame_envelope isOpen running typed
  case delivered => exact Broker.delivered_eq connected asks accepted reached
  case notice => rfl
  case length => exact grows
  case fits => exact fits
  case fits_agents =>
    intro spelled isId isId' short
    refine fits spelled ?_
    have digits := size_number e.msgId
    rw [size_agentId isId, size_agentId isId']
    omega
  case passes => exact Session.frames_allowed
  case breaks =>
    rintro above s' t' isOpen' same rfl waits
    rw [← same] at above
    exact Session.write_fails isOpen' waits above

def greeting : Envelope := ⟨1, some (.sendMessage ⟨"c", "b", .text "hi"⟩)⟩

def correspondents (sender : String) : Broker :=
  .replay default [.command 0 0 true (.connect sender 1 0), .command 0 0 true (.connect "b" 2 1)]

theorem decode?_greeting : (decode? (encode greeting) : Option Envelope) = some greeting :=
  LawfulWire.keepsValues.decode?_encode greeting nofun nofun

/-- A letter that is just small enough comes out too large, and ends the session of its receiver. -/
theorem greeting_outgrows :
    let body := encode greeting
    let max := body.length
    let b := correspondents "bookseller-1"
    let event : Broker.Event := .command 0 0 false (.envelope "bookseller-1" greeting)
    (Allowed max body ∧ decode? body = some greeting) ∧
      (b.posted event).map (fun p => (p.1, p.2.isDelivery, (encode p.2).length)) =
        [(2, true, max + 4)] ∧
      let s := Session.start "b" 2 max
      let t : Timeline := ⟨{ Scheduler.start default with broker := b.after event }, none, 0⟩
      (s.write t).1 = [] ∧ (s.write t).2.1.isOpen = false := by
  refine ⟨⟨by decide +kernel, decode?_greeting⟩, by decide +kernel, ?_, ?_⟩
  · decide +kernel
  · decide +kernel

theorem conveyed_greeting :
    let s := Session.start "bookseller-1" 1 105
    let t := Timeline.start default
    let b := correspondents "bookseller-1"
    s.isOpen ∧ t.scheduler.isStopped = false ∧ Allowed s.maxFrame (encode greeting) ∧
      decode? (encode greeting) = some greeting ∧
      b.isConnected s.agent ∧ b.accepts 0 s.agent ⟨"c", "b", .text "hi"⟩ ∧ b.reach? "b" = some 2 ∧
      Conveyed s t (encode greeting) greeting ⟨"c", "b", .text "hi"⟩ 2
        (b.posted (.command 0 0 false (.envelope s.agent greeting)))
        (.delivery s.agent "c" (.text "hi")) := by
  intro s t b
  have allowed : Allowed s.maxFrame (encode greeting) := by decide +kernel
  have connected : b.isConnected s.agent := by decide +kernel
  have reached : b.reach? "b" = some 2 := by decide +kernel
  exact ⟨rfl, rfl, allowed, decode?_greeting, connected, rfl, reached,
    conveyed rfl rfl allowed decode?_greeting rfl connected rfl reached⟩

end AgentBroker
