import AgentBroker.Handshake.Gatekeeper
import AgentBroker.Proofs.Scheduler.Settling
import AgentBroker.Proofs.Stream.Party

/-!
# A gatekeeper among others

A client sends bytes as it likes, reads or does not read, and goes away when it likes; others use
the scheduler in the meantime. The gatekeeper takes its steps between all that. What one step of it
can do is said here once.
-/

namespace AgentBroker

open AgentBroker.Frame

def GateStage.reads : GateStage → Bool
  | .introduction | .answer _ => true
  | _ => false

def Scheduler.counting (s : Scheduler) (f : Metrics → Metrics) : Scheduler :=
  { s with broker := s.broker.count f }

def Reply.admitted? : Reply → Option Bool
  | .admitted ok => some ok
  | _ => none

theorem Reply.eq_admitted {r : Reply} {ok : Bool} (h : r.admitted? = some ok) :
    r = .admitted ok := by
  cases r with
  | admitted => exact congrArg _ (Option.some.inj h)
  | _ => cases h

namespace Gatekeeper

def tells? (k : Gatekeeper) : Option Bytes :=
  match k.stage with
  | .refusal _ => some (Wire.encode Challenge.failure)
  | .challenge _ => some (Wire.encode (Challenge.phrase k.phrase))
  | .rejection _ => some (Wire.encode (Verdict.mk false))
  | .verdict _ admitted => some (Wire.encode (Verdict.mk admitted))
  | _ => none

variable {k : Gatekeeper}

theorem need_tells {body : Bytes} (h : k.tells? = some body) :
    k.need = .write (write? k.maxFrame body) := by
  rw [tells?] at h
  rw [need]
  cases stage : k.stage with
  | refusal | challenge | rejection | verdict =>
    rw [stage] at h
    cases h
    rfl
  | _ => rw [stage] at h; cases h

theorem reads_of_need {max : Nat} (h : k.need = .frame max) :
    k.stage.reads ∧ max = k.maxFrame := by
  rw [need] at h
  cases stage : k.stage with
  | introduction | answer =>
    rw [stage] at h
    cases h
    exact ⟨rfl, rfl⟩
  | _ => rw [stage] at h; cases h

theorem tells_of_need {written : Except WireError Bytes} (h : k.need = .write written) :
    ∃ body, k.tells? = some body ∧ write? k.maxFrame body = written := by
  rw [need] at h
  rw [tells?]
  cases stage : k.stage with
  | refusal | challenge | rejection | verdict =>
    rw [stage] at h
    cases h
    exact ⟨_, rfl, rfl⟩
  | _ => rw [stage] at h; cases h

theorem waits_of_need (h : k.need = .turn) :
    (∃ id, k.stage = .admission id) ∨ ∃ id cause, k.stage = .withdrawal id cause := by
  rw [need] at h
  cases stage : k.stage with
  | admission id => exact .inl ⟨id, rfl⟩
  | withdrawal id cause => exact .inr ⟨id, cause, rfl⟩
  | _ => rw [stage] at h; cases h

theorem reads_or_tells_of_alarm {t : Nanos} (h : k.alarm? = some t) :
    k.stage.reads ∨ ∃ body, k.tells? = some body := by
  rw [alarm?] at h
  rw [tells?]
  cases stage : k.stage with
  | introduction | answer => exact .inl rfl
  | refusal | challenge | rejection | verdict => exact .inr ⟨_, rfl⟩
  | _ => rw [stage] at h; cases h

theorem waits_of_reads (h : k.stage.reads) {P : Bytes → Prop} (body : Bytes)
    (tells : k.tells? = some body) : P body := by
  rw [tells?] at tells
  cases stage : k.stage with
  | introduction | answer => rw [stage] at tells; cases tells
  | _ => rw [stage] at h; cases h

/-- What a keeper knows from the beginning. -/
structure SameSettings (k k' : Gatekeeper) : Prop where
  maxFrame : k'.maxFrame = k.maxFrame
  phrase : k'.phrase = k.phrase

namespace SameSettings

theorem refl (k : Gatekeeper) : k.SameSettings k := ⟨rfl, rfl⟩

theorem receive (k : Gatekeeper) (frame : Bytes) : k.SameSettings (k.receive frame) := by
  rw [Gatekeeper.receive]
  split
  · split
    · exact ⟨rfl, rfl⟩
    · split <;> exact ⟨rfl, rfl⟩
  · split
    · exact ⟨rfl, rfl⟩
    · split <;> exact ⟨rfl, rfl⟩
  · exact ⟨rfl, rfl⟩

theorem wrote (k : Gatekeeper) : k.SameSettings k.wrote := by
  rw [Gatekeeper.wrote]
  split <;> exact ⟨rfl, rfl⟩

theorem breakOff (k : Gatekeeper) (e : HandshakeError) : k.SameSettings (k.breakOff e) := by
  rw [Gatekeeper.breakOff]
  split <;> exact ⟨rfl, rfl⟩

theorem decide (k : Gatekeeper) (now : Nanos) (admitted : Option Bool) :
    k.SameSettings (k.decide now admitted) := by
  unfold Gatekeeper.decide
  split <;> exact ⟨rfl, rfl⟩

theorem withdraw (k : Gatekeeper) (taken : Bool) : k.SameSettings (k.withdraw taken) := by
  rw [Gatekeeper.withdraw]
  split <;> exact ⟨rfl, rfl⟩

end SameSettings

def meet (k : Gatekeeper) : Happening → Gatekeeper
  | .received (.ok frame) => k.receive frame
  | .written (.ok _) => k.wrote
  | .received (.error e) | .written (.error e) => k.breakOff (.transport e)
  | .alarm => k.breakOff (.timeout k.patience)
  | .turn => k

end Gatekeeper

namespace Gate

variable {g : Gate} {k : Gatekeeper}

def admission (id : String) (channel : Channel) :
    { make : Ticket → Command // ∀ n, (make n).ticket? = some n } :=
  ⟨.connect id channel, fun _ => rfl⟩

def dismissal (id : String) : { c : Command // c.ticket? = none } := ⟨.disconnect id, rfl⟩

def asks (g : Gate) : List Command :=
  match g.keeper.stage with
  | .admission id => [.connect id g.channel g.timeline.scheduler.tickets]
  | .withdrawal id _ => [.disconnect id]
  | _ => []

def answers (g : Gate) : List Reply :=
  match g.keeper.stage with
  | .admission id => [(g.timeline.request (.connect id g.channel)).1]
  | _ => []

/-- What the command of the keeper brings about before the keeper goes on. -/
def dealings (g : Gate) : List (Scheduler.Action Unit) :=
  match g.keeper.stage with
  | .admission id => g.timeline.requesting (admission id g.channel)
  | .withdrawal id _ => [.post () (dismissal id)]
  | _ => []

theorem mem_dealings {a : Scheduler.Action Unit} (mem : a ∈ g.dealings) :
    (∃ id, g.keeper.stage = .admission id ∧ a = .request () (admission id g.channel)) ∨
    (∃ id cause, g.keeper.stage = .withdrawal id cause ∧ a = .post () (dismissal id)) ∨
    (∃ maxIdle, a = .post () ⟨.expireIdle maxIdle, rfl⟩) ∨ (∃ now, a = .work now 0) ∨
    ∃ t, a = .collect t := by
  rw [dealings] at mem
  cases stage : g.keeper.stage with
  | admission id =>
    rw [stage] at mem
    dsimp only [Timeline.requesting] at mem
    split at mem
    · cases mem
    · rcases List.mem_append.mp mem with asked | collected
      · rcases List.mem_cons.mp asked with rfl | settles
        · exact .inl ⟨id, rfl, rfl⟩
        · rcases Timeline.mem_settling settles with rfl | ⟨maxIdle, rfl⟩
          · exact .inr (.inr (.inr (.inl ⟨_, rfl⟩)))
          · exact .inr (.inr (.inl ⟨maxIdle, rfl⟩))
      · exact .inr (.inr (.inr (.inr ⟨_, List.mem_singleton.mp collected⟩)))
  | withdrawal id cause =>
    rw [stage] at mem
    exact .inr (.inl ⟨id, cause, rfl, List.mem_singleton.mp mem⟩)
  | _ => rw [stage] at mem; cases mem

theorem idle_of_need (h : g.keeper.need ≠ .turn) :
    g.asks = [] ∧ g.answers = [] ∧ g.dealings = [] := by
  rw [Gatekeeper.need] at h
  rw [asks, answers, dealings]
  cases stage : g.keeper.stage with
  | admission | withdrawal =>
    rw [stage] at h
    exact absurd rfl h
  | _ => exact ⟨rfl, rfl, rfl⟩

/-- The gate has another keeper, the scheduler has done `actions`, and something may have been
counted. -/
structure Leads (g : Gate) (actions : List (Scheduler.Action Unit)) (k : Gatekeeper) (g' : Gate) :
    Prop where
  keeper : g'.keeper = k
  channel : g'.channel = g.channel
  scheduler : ∃ f, g'.timeline.scheduler = (g.timeline.scheduler.after actions).counting f

theorem leads_advance (g g' : Gate) {actions : List (Scheduler.Action Unit)}
    (channel : g'.channel = g.channel)
    (scheduler : g'.timeline.scheduler = g.timeline.scheduler.after actions) (k : Gatekeeper) :
    Leads g actions k (g'.advance k) := by
  rw [advance]
  split
  · exact ⟨rfl, channel, .handshakeFailed, congrArg (·.counting .handshakeFailed) scheduler⟩
  · exact ⟨rfl, channel, id, scheduler⟩

theorem leads_step (g : Gate) (now : Nanos) {h : Happening} (stream : h ≠ .turn) :
    Leads g [] (g.keeper.meet h) (Party.step g now h) := by
  cases h with
  | received outcome =>
    cases outcome with
    | ok frame => exact leads_advance g g rfl rfl _
    | error e => exact leads_advance g g rfl rfl _
  | written outcome =>
    cases outcome with
    | ok u => exact leads_advance g g rfl rfl _
    | error e => exact leads_advance g g rfl rfl _
  | alarm => exact leads_advance g g rfl rfl _
  | turn => exact absurd rfl stream

theorem leads_admission {id : String} (stage : g.keeper.stage = .admission id) (now : Nanos) :
    Leads g (g.timeline.requesting (admission id g.channel))
      (g.keeper.decide now (g.timeline.request (.connect id g.channel)).1.admitted?)
      (g.consult now) := by
  have scheduler := @Timeline.request_eq g.timeline (admission id g.channel)
  rw [admission] at scheduler ⊢
  rw [consult, stage]
  dsimp only at scheduler ⊢
  generalize g.timeline.request (.connect id g.channel) = answer at scheduler ⊢
  obtain ⟨r, t⟩ := answer
  cases r with
  | _ => exact leads_advance g ⟨g.keeper, t, g.channel⟩ rfl scheduler _

theorem leads_withdrawal {id : String} {cause : HandshakeError}
    (stage : g.keeper.stage = .withdrawal id cause) (now : Nanos) :
    Leads g [.post () (dismissal id)]
      (g.keeper.withdraw !g.timeline.scheduler.isStopped) (g.consult now) := by
  rw [consult, stage]
  dsimp only
  rw [Timeline.enqueue, Scheduler.enqueue?]
  cases stopped : g.timeline.scheduler.isStopped with
  | true =>
    have ignored : g.timeline.scheduler = g.timeline.scheduler.after
        [(.post () (dismissal id) : Scheduler.Action Unit)] := by
      change _ = g.timeline.scheduler.enqueue (.disconnect id)
      rw [Scheduler.enqueue, Scheduler.enqueue?, if_pos stopped]
      rfl
    exact leads_advance g g rfl ignored _
  | false =>
    let s := { g.timeline.scheduler with
      queue := g.timeline.scheduler.queue ++ [Command.disconnect id] }
    have taken : s = g.timeline.scheduler.after
        [(.post () (dismissal id) : Scheduler.Action Unit)] := by
      change _ = g.timeline.scheduler.enqueue (.disconnect id)
      rw [Scheduler.enqueue, Scheduler.enqueue?, if_neg (Bool.eq_false_iff.mp stopped)]
      rfl
    exact leads_advance g { g with timeline.scheduler := s } rfl taken _

end Gate

/-- A gatekeeper at its end of a stream, and all that is around it. -/
structure Entrance where
  seat : Seat Gate
  source : Pipe
  sink : Pipe
  now : Nanos

namespace Entrance

def start (maxFrame : Nat) (patience : Nanos) (phrase : String) (channel : Channel)
    (timeline : Timeline) (room room' : Nat) : Entrance :=
  ⟨.take ⟨.start maxFrame patience phrase, timeline, channel⟩, .empty room, .empty room', 0⟩

inductive Move where
  /-- The client sends bytes, of which as many go in as there is room for. -/
  | send (piece : Bytes)
  | finish
  | drain (n : Nat)
  /-- The client reads no more. -/
  | shut
  | wait (span : Nanos)
  | elsewhere (a : Scheduler.Action Unit)
  /-- The gatekeeper takes a step, or it is woken. -/
  | go

def keeper (e : Entrance) : Gatekeeper := e.seat.state.keeper

def scheduler (e : Entrance) : Scheduler := e.seat.state.timeline.scheduler

def broker (e : Entrance) : Broker := e.scheduler.broker

def go (e : Entrance) : Entrance :=
  match e.seat.step? e.now e.source e.sink with
  | some (seat, source, sink) => { e with seat, source, sink }
  | none => { e with seat := (e.seat.wake? e.now).getD e.seat }

def act (e : Entrance) : Move → Entrance
  | .send piece => if e.source.isOpen then { e with source := e.source.put piece } else e
  | .finish => { e with source := e.source.close }
  | .drain n => { e with sink := (e.sink.take n).2 }
  | .shut => { e with sink := e.sink.close }
  | .wait span =>
    { e with now := e.now + span, seat.state.timeline.now := e.seat.state.timeline.now + span }
  | .elsewhere a => { e with seat.state.timeline.scheduler := e.scheduler.act a }
  | .go => e.go

def gives (e : Entrance) : Move → Bytes
  | .send piece => if e.source.isOpen then piece.take e.source.room else []
  | _ => []

def writes (e : Entrance) : Move → Bytes
  | .go => e.go.sink.bytes.drop e.sink.bytes.length
  | _ => []

def asks (e : Entrance) : Move → List Command
  | .go => e.seat.state.asks
  | _ => []

def hears (e : Entrance) : Move → List Reply
  | .go => e.seat.state.answers
  | _ => []

def dealings (e : Entrance) : Move → List (Scheduler.Action Unit)
  | .elsewhere a => [a]
  | .go => e.seat.state.dealings
  | _ => []

def after (e : Entrance) (moves : List Move) : Entrance := Run.last act e moves

def given (e : Entrance) (moves : List Move) : Bytes := Run.log act gives e moves

def written (e : Entrance) (moves : List Move) : Bytes := Run.log act writes e moves

def asked (e : Entrance) (moves : List Move) : List Command := Run.log act asks e moves

def heard (e : Entrance) (moves : List Move) : List Reply := Run.log act hears e moves

def carried (e : Entrance) (moves : List Move) : List Broker.Event :=
  Run.log act (fun e m => e.scheduler.carried (e.dealings m)) e moves

structure View where
  keeper : Gatekeeper
  /-- What it has read of the next frame. -/
  seen : Bytes
  /-- How much it has written of its message. -/
  gone : Nat
  /-- What has come and is not read. -/
  left : Bytes

def view (e : Entrance) : View := ⟨e.keeper, e.seat.seen, e.seat.gone, e.source.bytes⟩

/-- All that a step of the gatekeeper can do: what it writes, what it asks, and what it hears. -/
inductive Turn (channel : Channel) (v : View) :
    Bytes → List Command → List Reply → View → Prop
  | rests : Turn channel v [] [] [] v
  | reads {piece left : Bytes} (reads : v.keeper.stage.reads)
      (incomplete : next v.keeper.maxFrame v.seen = .incomplete)
      (few : piece.length ≤ lacking v.seen) (split : v.left = piece ++ left) :
      Turn channel v [] [] [] ⟨v.keeper, v.seen ++ piece, v.gone, left⟩
  | receives {body rest : Bytes} (reads : v.keeper.stage.reads)
      (whole : next v.keeper.maxFrame v.seen = .frame body rest) :
      Turn channel v [] [] [] ⟨v.keeper.receive body, [], 0, v.left⟩
  | puts {body : Bytes} (tells : v.keeper.tells? = some body)
      (allowed : Allowed v.keeper.maxFrame body) (n : Nat) :
      Turn channel v (((framed body).drop v.gone).take n) [] []
        ⟨v.keeper, v.seen, v.gone + n, v.left⟩
  | wrote {body : Bytes} (tells : v.keeper.tells? = some body)
      (allowed : Allowed v.keeper.maxFrame body) (out : (framed body).drop v.gone = []) :
      Turn channel v [] [] [] ⟨v.keeper.wrote, [], 0, v.left⟩
  | breaksOff {cause : HandshakeError}
      (busy : v.keeper.stage.reads ∨ ∃ body, v.keeper.tells? = some body)
      (waits : ∀ body, v.keeper.tells? = some body → Allowed v.keeper.maxFrame body →
        (framed body).drop v.gone ≠ []) :
      Turn channel v [] [] [] ⟨v.keeper.breakOff cause, [], 0, v.left⟩
  | asks {id : String} (stage : v.keeper.stage = .admission id) (ticket : Ticket) (r : Reply)
      (now : Nanos) :
      Turn channel v [] [.connect id channel ticket] [r]
        ⟨v.keeper.decide now r.admitted?, [], 0, v.left⟩
  | withdraws {id : String} {cause : HandshakeError} (stage : v.keeper.stage = .withdrawal id cause)
      (taken : Bool) :
      Turn channel v [] [.disconnect id] [] ⟨v.keeper.withdraw taken, [], 0, v.left⟩

variable {e : Entrance}

theorem turn_stream {written : Bytes} (stream : e.keeper.need ≠ .turn)
    (writes : e.go.sink.bytes.drop e.sink.bytes.length = written)
    (turn : Turn e.seat.state.channel e.view written [] [] e.go.view)
    (leads : Gate.Leads e.seat.state [] e.go.keeper e.go.seat.state) :
    Turn e.seat.state.channel e.view (e.writes .go) (e.asks .go) (e.hears .go) e.go.view ∧
    Gate.Leads e.seat.state (e.dealings .go) e.go.keeper e.go.seat.state := by
  obtain ⟨asks, answers, dealings⟩ := Gate.idle_of_need stream
  rw [Entrance.writes, Entrance.asks, hears, Entrance.dealings, asks, answers, dealings, writes]
  exact ⟨turn, leads⟩

theorem turn_met (h : Happening) (stream : e.keeper.need ≠ .turn) (other : h ≠ .turn)
    (seat : e.go.seat = e.seat.happen e.now h) (source : e.go.source = e.source)
    (sink : e.go.sink = e.sink)
    (turn : Turn e.seat.state.channel e.view [] [] [] ⟨e.keeper.meet h, [], 0, e.source.bytes⟩) :
    Turn e.seat.state.channel e.view (e.writes .go) (e.asks .go) (e.hears .go) e.go.view ∧
    Gate.Leads e.seat.state (e.dealings .go) e.go.keeper e.go.seat.state := by
  have leads := e.seat.state.leads_step e.now other
  have state : e.go.seat.state = Party.step e.seat.state e.now h := congrArg Seat.state seat
  rw [← state] at leads
  have view : e.go.view = ⟨e.keeper.meet h, [], 0, e.source.bytes⟩ := by
    rw [Entrance.view, keeper, leads.keeper, source, seat]
    rfl
  rw [← view] at turn
  refine turn_stream stream ?_ turn ⟨rfl, leads.channel, leads.scheduler⟩
  rw [sink, List.drop_length]

theorem turn_stays (written : Bytes) (stream : e.keeper.need ≠ .turn)
    (state : e.go.seat.state = e.seat.state)
    (writes : e.go.sink.bytes.drop e.sink.bytes.length = written)
    (turn : Turn e.seat.state.channel e.view written [] []
      ⟨e.keeper, e.go.seat.seen, e.go.seat.gone, e.go.source.bytes⟩) :
    Turn e.seat.state.channel e.view (e.writes .go) (e.asks .go) (e.hears .go) e.go.view ∧
    Gate.Leads e.seat.state (e.dealings .go) e.go.keeper e.go.seat.state := by
  have same : e.go.keeper = e.keeper := congrArg Gate.keeper state
  rw [← same] at turn
  refine turn_stream stream writes turn ⟨rfl, ?_, id, ?_⟩
  · rw [state]
  · rw [state]
    rfl

theorem turn_waiting (stepped : e.seat.step? e.now e.source e.sink = none) :
    Turn e.seat.state.channel e.view (e.writes .go) (e.asks .go) (e.hears .go) e.go.view ∧
    Gate.Leads e.seat.state (e.dealings .go) e.go.keeper e.go.seat.state := by
  have stream : e.keeper.need ≠ .turn := Seat.need_of_step?_none stepped
  cases woken : e.seat.wake? e.now with
  | none =>
    have still : e.go = e := by
      rw [go, stepped, woken]
      rfl
    refine turn_stays [] stream ?_ ?_ ?_
    · rw [still]
    · rw [still, List.drop_length]
    · rw [still]
      exact .rests
  | some seat =>
    have moved : e.go = { e with seat } := by
      rw [go, stepped, woken]
      rfl
    obtain ⟨t, alarm, due, happens⟩ := Seat.wake?_eq_some woken
    have waits (body : Bytes) (tells : e.keeper.tells? = some body)
        (allowed : Allowed e.keeper.maxFrame body) : (framed body).drop e.seat.gone ≠ [] := by
      have writes := Gatekeeper.need_tells tells
      rw [write?_eq_ok allowed] at writes
      exact Seat.waits_of_step?_none writes stepped
    refine turn_met .alarm stream nofun ?_ ?_ ?_ ?_
    · rw [moved, happens]
    · rw [moved]
    · rw [moved]
    · exact .breaksOff (Gatekeeper.reads_or_tells_of_alarm alarm) waits

theorem turn_consults (turn : Party.need e.seat.state = .turn)
    (seat : e.go.seat = e.seat.happen e.now .turn) (source : e.go.source = e.source)
    (sink : e.go.sink = e.sink) :
    Turn e.seat.state.channel e.view (e.writes .go) (e.asks .go) (e.hears .go) e.go.view ∧
    Gate.Leads e.seat.state (e.dealings .go) e.go.keeper e.go.seat.state := by
  have state : e.go.seat.state = e.seat.state.consult e.now := congrArg Seat.state seat
  have view : e.go.view = ⟨(e.seat.state.consult e.now).keeper, [], 0, e.source.bytes⟩ := by
    rw [Entrance.view, keeper, seat, source]
    rfl
  have silent : e.go.sink.bytes.drop e.sink.bytes.length = [] := by
    rw [sink, List.drop_length]
  rw [Entrance.writes, asks, hears, dealings, Gate.asks, Gate.answers, Gate.dealings, silent,
    view, keeper, state]
  rcases Gatekeeper.waits_of_need turn with ⟨id, stage⟩ | ⟨id, cause, stage⟩
  · have leads := Gate.leads_admission stage e.now
    rw [stage, leads.keeper]
    exact ⟨.asks stage _ _ _, leads⟩
  · have leads := Gate.leads_withdrawal stage e.now
    rw [stage, leads.keeper]
    exact ⟨.withdraws stage _, leads⟩

theorem turn_stepping {seat : Seat Gate} {source sink : Pipe}
    (step : Seat.Step e.seat e.now e.source e.sink seat source sink)
    (seat_eq : e.go.seat = seat) (source_eq : e.go.source = source) (sink_eq : e.go.sink = sink) :
    Turn e.seat.state.channel e.view (e.writes .go) (e.asks .go) (e.hears .go) e.go.view ∧
    Gate.Leads e.seat.state (e.dealings .go) e.go.keeper e.go.seat.state := by
  have stream {n : Need} (need : e.keeper.need = n) (other : n ≠ .turn) :
      e.keeper.need ≠ .turn := need ▸ other
  cases step with
  | receives reads whole =>
    obtain ⟨reading, rfl⟩ := Gatekeeper.reads_of_need reads
    refine turn_met (.received (.ok _)) (stream reads nofun) nofun seat_eq source_eq sink_eq ?_
    exact .receives reading whole
  | refuses reads above =>
    obtain ⟨reading, rfl⟩ := Gatekeeper.reads_of_need reads
    refine turn_met (.received (.error _)) (stream reads nofun) nofun seat_eq source_eq sink_eq ?_
    exact .breaksOff (.inl reading) (Gatekeeper.waits_of_reads reading)
  | takes reads incomplete few split =>
    obtain ⟨reading, rfl⟩ := Gatekeeper.reads_of_need reads
    refine turn_stays [] (stream reads nofun) ?_ ?_ ?_
    · rw [seat_eq]
    · rw [sink_eq, List.drop_length]
    · rw [seat_eq, source_eq]
      exact .reads reading incomplete few split
  | finishes reads closed =>
    obtain ⟨reading, rfl⟩ := Gatekeeper.reads_of_need reads
    refine turn_met (.received (.error _)) (stream reads nofun) nofun seat_eq source_eq sink_eq ?_
    exact .breaksOff (.inl reading) (Gatekeeper.waits_of_reads reading)
  | fails writes =>
    obtain ⟨body, tells, failed⟩ := Gatekeeper.tells_of_need writes
    refine turn_met (.written (.error _)) (stream writes nofun) nofun seat_eq source_eq sink_eq ?_
    refine .breaksOff (.inr ⟨body, tells⟩) fun body' tells' allowed => ?_
    cases Option.some.inj (tells.symm.trans tells')
    cases failed.symm.trans (write?_eq_ok allowed)
  | completes writes out =>
    obtain ⟨body, tells, made⟩ := Gatekeeper.tells_of_need writes
    obtain ⟨allowed, rfl⟩ := write?_eq_ok_iff.mp made
    refine turn_met (.written (.ok ())) (stream writes nofun) nofun seat_eq source_eq sink_eq ?_
    exact .wrote tells allowed out
  | breaks writes waits closed =>
    obtain ⟨body, tells, made⟩ := Gatekeeper.tells_of_need writes
    obtain ⟨allowed, rfl⟩ := write?_eq_ok_iff.mp made
    refine turn_met (.written (.error _)) (stream writes nofun) nofun seat_eq source_eq sink_eq ?_
    refine .breaksOff (.inr ⟨body, tells⟩) fun body' tells' _ => ?_
    cases Option.some.inj (tells.symm.trans tells')
    exact waits
  | puts writes =>
    obtain ⟨body, tells, made⟩ := Gatekeeper.tells_of_need writes
    obtain ⟨allowed, rfl⟩ := write?_eq_ok_iff.mp made
    refine turn_stays (((framed body).drop e.seat.gone).take e.sink.room) (stream writes nofun)
      ?_ ?_ ?_
    · rw [seat_eq]
    · rw [sink_eq, Pipe.put, List.drop_left]
    · rw [seat_eq, source_eq]
      exact .puts tells allowed e.sink.room
  | turns turn => exact turn_consults turn seat_eq source_eq sink_eq
  | leaves leave =>
    refine turn_stays [] (stream leave (by simp)) ?_ ?_ ?_
    · rw [seat_eq]
    · rw [sink_eq, Pipe.close, List.drop_length]
    · rw [seat_eq, source_eq]
      exact .rests

theorem turn_go (e : Entrance) :
    Turn e.seat.state.channel e.view (e.writes .go) (e.asks .go) (e.hears .go) e.go.view ∧
    Gate.Leads e.seat.state (e.dealings .go) e.go.keeper e.go.seat.state := by
  cases stepped : e.seat.step? e.now e.source e.sink with
  | none => exact turn_waiting stepped
  | some found =>
    obtain ⟨seat, source, sink⟩ := found
    have moved : e.go = { e with seat, source, sink } := by
      rw [go, stepped]
    refine turn_stepping (Seat.step_of_step? stepped) ?_ ?_ ?_ <;> rw [moved]

end Entrance

end AgentBroker
