import AgentBroker.Connection.Session
import AgentBroker.Proofs.Frame.Decomposition
import AgentBroker.Proofs.Run
import AgentBroker.Proofs.Wire.RoundTrip

/-!
# What a session submits

The bytes of a session come in pieces, while others use the scheduler as they like. Of the frames in
the stream, those that hold an envelope are submitted in their order and the others are counted; at
the end, and only then, the session is left, once.
-/

namespace AgentBroker

open AgentBroker.Frame

def envelopesIn (bodies : List Bytes) : List Envelope := bodies.filterMap Wire.decode?

def garbageIn (bodies : List Bytes) : List Bytes :=
  bodies.filter fun body => (Wire.decode? body : Option Envelope).isNone

theorem envelopesIn_append (xs ys : List Bytes) :
    envelopesIn (xs ++ ys) = envelopesIn xs ++ envelopesIn ys :=
  List.filterMap_append

theorem garbageIn_append (xs ys : List Bytes) :
    garbageIn (xs ++ ys) = garbageIn xs ++ garbageIn ys :=
  List.filter_append _ _

def WireError.isTooLarge : WireError → Bool
  | .tooLarge .. => true
  | _ => false

theorem Frame.takeComplete_frame {max : Nat} {bytes body rest : Bytes}
    (h : next max bytes = .frame body rest) :
    takeComplete max bytes = (body :: (takeComplete max rest).1, (takeComplete max rest).2) := by
  rw [takeComplete]
  split
  next eq =>
    rw [h] at eq
    cases eq
    rfl
  next other => exact absurd h (other _ _)

theorem Frame.takeComplete_none {max : Nat} {bytes : Bytes}
    (h : ∀ body rest, next max bytes ≠ .frame body rest) :
    takeComplete max bytes = ([], bytes) := by
  rw [takeComplete]
  split
  next eq => exact absurd eq (h _ _)
  · rfl

theorem Frame.takeComplete_splits (max : Nat) (bytes : Bytes) :
    bytes = wire (takeComplete max bytes).1 ++ (takeComplete max bytes).2 ∧
    (∀ body ∈ (takeComplete max bytes).1, Allowed max body) ∧
    ∀ body rest, next max (takeComplete max bytes).2 ≠ .frame body rest := by
  cases first : next max bytes with
  | frame body rest =>
    obtain ⟨allowed, split⟩ := next_eq_frame.mp first
    have shorter : rest.length < bytes.length := next_rest_length first
    obtain ⟨whole, all, ended⟩ := takeComplete_splits max rest
    rw [takeComplete_frame first]
    refine ⟨?_, List.forall_mem_cons.mpr ⟨allowed, all⟩, ended⟩
    rw [wire, List.flatMap_cons, List.append_assoc]
    exact split.trans (congrArg (framed body ++ ·) whole)
  | incomplete =>
    have none : ∀ body rest, next max bytes ≠ .frame body rest := by simp [first]
    rw [takeComplete_none none]
    exact ⟨rfl, by simp, none⟩
  | tooLarge size =>
    have none : ∀ body rest, next max bytes ≠ .frame body rest := by simp [first]
    rw [takeComplete_none none]
    exact ⟨rfl, by simp, none⟩
termination_by bytes.length

theorem Frame.next_append_tooLarge {max size : Nat} {bytes : Bytes}
    (h : next max bytes = .tooLarge size) (more : Bytes) :
    next max (bytes ++ more) = .tooLarge size := by
  obtain ⟨above, tail, announces⟩ := next_eq_tooLarge h
  rw [(announces.append more).next_eq, if_pos above]

/-- The timeline with more commands in the queue and more decoding errors counted. -/
def Timeline.noting (t : Timeline) (cs : List Command) (errors : Nat) : Timeline :=
  { t with
    scheduler.queue := t.scheduler.queue ++ cs
    scheduler.broker.metrics.routing.decodeErrors :=
      t.scheduler.broker.metrics.routing.decodeErrors + errors }

theorem Timeline.noting_nothing (t : Timeline) : t.noting [] 0 = t := by
  rw [noting, List.append_nil]
  rfl

theorem Timeline.noting_noting (t : Timeline) (xs ys : List Command) (m n : Nat) :
    (t.noting xs m).noting ys n = t.noting (xs ++ ys) (m + n) := by
  rw [noting, noting, noting]
  dsimp only
  rw [List.append_assoc, Nat.add_assoc]

theorem Timeline.enqueue_eq {t : Timeline} (runs : t.scheduler.isStopped = false) (c : Command) :
    t.enqueue c = (true, t.noting [c] 0) := by
  rw [enqueue, Scheduler.enqueue?, runs]
  rfl

theorem Timeline.count_decodeError (t : Timeline) : t.count .decodeError = t.noting [] 1 := by
  rw [noting, List.append_nil]
  rfl

namespace Session

variable {s : Session} {t : Timeline}

def commands (s : Session) (bodies : List Bytes) : List Command :=
  (envelopesIn bodies).map (.envelope s.agent)

def leave (s : Session) : Command := .disconnectSession s.agent s.channel

def holding (s : Session) (pending : Bytes) : Session := { s with pending }

def ended (s : Session) : Session := { s with isOpen := false }

theorem commands_append (s : Session) (xs ys : List Bytes) :
    s.commands (xs ++ ys) = s.commands xs ++ s.commands ys := by
  rw [commands, envelopesIn_append, List.map_append]
  rfl

theorem close_eq (going : s.isOpen) (runs : t.scheduler.isStopped = false) :
    s.close t = (s.ended, t.noting [s.leave] 0) := by
  rw [close, if_pos going, Timeline.enqueue_eq runs]
  rfl

theorem close_closed (closed : s.isOpen = false) : s.close t = (s, t) := by
  rw [close, closed]
  rfl

theorem takeFrame_eq (going : s.isOpen) (runs : t.scheduler.isStopped = false) (body : Bytes) :
    s.takeFrame t body = (s, t.noting (s.commands [body]) (garbageIn [body]).length) := by
  rw [takeFrame, if_pos going]
  cases typed : (Wire.decode? body : Option Envelope) with
  | none =>
    have garbage : garbageIn [body] = [body] := by simp [garbageIn, typed]
    have nothing : s.commands [body] = [] := by simp [commands, envelopesIn, typed]
    rw [garbage, nothing]
    exact congrArg (s, ·) t.count_decodeError
  | some e =>
    have clean : garbageIn [body] = [] := by simp [garbageIn, typed]
    have single : s.commands [body] = [.envelope s.agent e] := by
      simp [commands, envelopesIn, typed]
    rw [clean, single]
    dsimp only
    rw [Timeline.enqueue_eq runs]
    rfl

theorem foldl_takeFrame (going : s.isOpen) (runs : t.scheduler.isStopped = false)
    (bodies : List Bytes) :
    bodies.foldl (fun (s, t) body => takeFrame s t body) (s, t) =
      (s, t.noting (s.commands bodies) (garbageIn bodies).length) := by
  induction bodies generalizing t with
  | nil => exact congrArg (s, ·) t.noting_nothing.symm
  | cons body bodies ih =>
    have split : body :: bodies = [body] ++ bodies := rfl
    rw [List.foldl_cons]
    dsimp only
    rw [takeFrame_eq going runs, ih (by exact runs), Timeline.noting_noting, split,
      commands_append, garbageIn_append, List.length_append]

/-- Bytes complete some frames. What is left behind them begins another one, or it announces one
that is above the limit and the session is left. -/
theorem receive_cases (going : s.isOpen) (runs : t.scheduler.isStopped = false) (piece : Bytes) :
    ∃ bodies left, s.pending ++ piece = wire bodies ++ left ∧
      (∀ body ∈ bodies, Allowed s.maxFrame body) ∧
      (next s.maxFrame left = .incomplete ∧
          s.receive t piece = (s.holding left,
            t.noting (s.commands bodies) (garbageIn bodies).length) ∨
        (∃ size, next s.maxFrame left = .tooLarge size) ∧
          s.receive t piece = ((s.holding left).ended,
            t.noting (s.commands bodies ++ [s.leave]) (garbageIn bodies).length)) := by
  obtain ⟨whole, allowed, ended⟩ := takeComplete_splits s.maxFrame (s.pending ++ piece)
  refine ⟨_, _, whole, allowed, ?_⟩
  generalize found : takeComplete s.maxFrame (s.pending ++ piece) = complete at ended ⊢
  obtain ⟨bodies, left⟩ := complete
  have taken : bodies.foldl (fun (s, t) body => takeFrame s t body) (s.holding left, t) =
      (s.holding left, t.noting (s.commands bodies) (garbageIn bodies).length) :=
    foldl_takeFrame (s := s.holding left) going runs bodies
  rw [receive, if_pos going, found]
  dsimp only
  rw [show { s with pending := left } = s.holding left from rfl, taken]
  have limit : (s.holding left).maxFrame = s.maxFrame := rfl
  rw [limit]
  cases arrival : next s.maxFrame left with
  | incomplete => exact .inl ⟨rfl, rfl⟩
  | tooLarge size =>
    refine .inr ⟨⟨size, rfl⟩, ?_⟩
    have closed := close_eq (s := s.holding left) going
      (t := t.noting (s.commands bodies) (garbageIn bodies).length) runs
    rw [Timeline.noting_noting] at closed
    exact closed
  | frame body rest => exact absurd arrival (ended body rest)

theorem receive_closed (closed : s.isOpen = false) (piece : Bytes) :
    s.receive t piece = (s, t) := by
  rw [receive, closed]
  rfl

end Session

/-- A session with the scheduler and all that is around it. -/
structure Attendance where
  session : Session
  timeline : Timeline

namespace Attendance

inductive Move where
  | arrive (piece : Bytes)
  /-- The stream ends, or it cannot be read any more. -/
  | hangUp
  /-- What waits in the mailbox is written. -/
  | write
  /-- Others do something, whatever it is. -/
  | elsewhere (f : Timeline → Timeline)

def Move.isHangUp : Move → Bool
  | .hangUp => true
  | _ => false

def Move.isElsewhere : Move → Bool
  | .elsewhere _ => true
  | _ => false

def act (a : Attendance) : Move → Attendance
  | .arrive piece =>
    ⟨(a.session.receive a.timeline piece).1, (a.session.receive a.timeline piece).2⟩
  | .hangUp => ⟨(a.session.hangUp a.timeline).1, (a.session.hangUp a.timeline).2⟩
  | .write => ⟨(a.session.write a.timeline).2.1, (a.session.write a.timeline).2.2⟩
  | .elsewhere f => { a with timeline := f a.timeline }

def queue (a : Attendance) : List Command := a.timeline.scheduler.queue

def decodeErrors (a : Attendance) : Nat := a.timeline.broker.metrics.routing.decodeErrors

def submits (a : Attendance) : Move → List Command
  | .elsewhere _ => []
  | m => (a.act m).queue.drop a.queue.length

def counts (a : Attendance) : Move → List Unit
  | .elsewhere _ => []
  | m => List.replicate ((a.act m).decodeErrors - a.decodeErrors) ()

def arrivals : List Move → Bytes
  | [] | .hangUp :: _ => []
  | .arrive piece :: rest => piece ++ arrivals rest
  | .write :: rest | .elsewhere _ :: rest => arrivals rest

def isOver (max : Nat) (past : Bytes) (moves : List Move) : Bool :=
  moves.any Move.isHangUp || (readAll max (past ++ arrivals moves)).2.isTooLarge

/-- The scheduler runs all the time, and the writing of notices does not fail. -/
structure Undisturbed (a : Attendance) (moves : List Move) : Prop where
  runs : ∀ past {m rest}, moves = past ++ m :: rest →
    (Run.last act a past).timeline.scheduler.isStopped = false
  writes : ∀ past {rest}, moves = past ++ .write :: rest →
    (Run.last act a past).session.isOpen → ((Run.last act a past).act .write).session.isOpen

variable {a : Attendance} {m : Move} {rest : List Move}

theorem Undisturbed.later (h : a.Undisturbed (m :: rest)) : (a.act m).Undisturbed rest where
  runs past _ _ split := h.runs (m :: past) (congrArg (m :: ·) split)
  writes past _ split := h.writes (m :: past) (congrArg (m :: ·) split)

theorem Undisturbed.now (h : a.Undisturbed (m :: rest)) :
    a.timeline.scheduler.isStopped = false :=
  h.runs [] rfl

theorem Undisturbed.writesNow (h : a.Undisturbed (.write :: rest)) :
    a.session.isOpen → (a.act .write).session.isOpen :=
  h.writes [] rfl

theorem undisturbed_nil : a.Undisturbed [] where
  runs _ _ _ split := by simp at split
  writes _ _ split := by simp at split

theorem Undisturbed.cons (runs : a.timeline.scheduler.isStopped = false)
    (own : m ≠ .write) (later : (a.act m).Undisturbed rest) : a.Undisturbed (m :: rest) where
  runs past _ _ split := by
    cases past with
    | nil => exact runs
    | cons first past =>
      obtain ⟨rfl, tail⟩ := List.cons_eq_cons.mp split
      exact later.runs past tail
  writes past _ split := by
    cases past with
    | nil => exact absurd (List.cons_eq_cons.mp split).1 own
    | cons first past =>
      obtain ⟨rfl, tail⟩ := List.cons_eq_cons.mp split
      exact later.writes past tail

theorem marks {cs : List Command} {errors : Nat} (own : m.isElsewhere = false)
    (queue : (a.act m).queue = a.queue ++ cs)
    (counted : (a.act m).decodeErrors = a.decodeErrors + errors) :
    a.submits m = cs ∧ a.counts m = List.replicate errors () := by
  have submitted : (a.act m).queue.drop a.queue.length = cs := by rw [queue, List.drop_left]
  have more : (a.act m).decodeErrors - a.decodeErrors = errors := by omega
  cases m with
  | elsewhere f => cases own
  | arrive | hangUp | write => exact ⟨submitted, congrArg (List.replicate · ()) more⟩

theorem noted {s : Session} {cs : List Command} {errors : Nat} (own : m.isElsewhere = false)
    (h : a.act m = ⟨s, a.timeline.noting cs errors⟩) :
    a.submits m = cs ∧ a.counts m = List.replicate errors () :=
  marks own (by rw [h]; rfl) (by rw [h]; rfl)

theorem runs_arrive (runs : a.timeline.scheduler.isStopped = false) (piece : Bytes) :
    (a.act (.arrive piece)).timeline.scheduler.isStopped = false := by
  rw [act]
  by_cases going : a.session.isOpen
  · obtain ⟨bodies, left, -, -, ⟨-, received⟩ | ⟨-, received⟩⟩ :=
      Session.receive_cases going runs piece
    · rw [received]
      exact runs
    · rw [received]
      exact runs
  · rw [Session.receive_closed (Bool.eq_false_iff.mpr going)]
    exact runs

theorem act_write (writes : a.session.isOpen → (a.act .write).session.isOpen) :
    (a.act .write).session = a.session ∧ a.submits .write = [] ∧ a.counts .write = [] := by
  have silent (queue : (a.act .write).queue = a.queue)
      (errors : (a.act .write).decodeErrors = a.decodeErrors) :
      a.submits .write = [] ∧ a.counts .write = [] :=
    @marks a .write [] 0 rfl (queue.trans (List.append_nil _).symm) errors
  suffices same : (a.act .write).session = a.session ∧ (a.act .write).queue = a.queue ∧
      (a.act .write).decodeErrors = a.decodeErrors from
    ⟨same.1, silent same.2.1 same.2.2⟩
  rw [act, Session.write] at writes ⊢
  by_cases going : a.session.isOpen
  · rw [if_pos going] at writes ⊢
    dsimp only at writes ⊢
    split
    next failed =>
      rw [if_pos failed] at writes
      have stays := writes going
      rw [Session.close, if_pos going] at stays
      cases stays
    · exact ⟨rfl, rfl, rfl⟩
  · rw [if_neg going]
    exact ⟨rfl, rfl, rfl⟩

theorem closed_act (closed : a.session.isOpen = false) (m : Move) :
    (a.act m).session = a.session ∧ a.submits m = [] ∧ a.counts m = [] := by
  have still {m : Move} (own : m.isElsewhere = false) (same : a.act m = a) :
      (a.act m).session = a.session ∧ a.submits m = [] ∧ a.counts m = [] := by
    have nothing : a.act m = ⟨a.session, a.timeline.noting [] 0⟩ := by
      rw [Timeline.noting_nothing, same]
    exact ⟨congrArg session same, noted own nothing⟩
  cases m with
  | arrive piece => exact still rfl (by rw [act, Session.receive_closed closed])
  | hangUp => exact still rfl (by rw [act, Session.hangUp, Session.close_closed closed])
  | write =>
    refine still rfl ?_
    rw [act, Session.write, closed]
    rfl
  | elsewhere f => exact ⟨rfl, rfl, rfl⟩

theorem closed_run (closed : a.session.isOpen = false) (moves : List Move) :
    Run.log act submits a moves = [] ∧ Run.log act counts a moves = [] := by
  induction moves generalizing a with
  | nil => exact ⟨rfl, rfl⟩
  | cons m rest ih =>
    obtain ⟨same, nothing, uncounted⟩ := a.closed_act closed m
    have still : (a.act m).session.isOpen = false := by rw [same, closed]
    obtain ⟨later, later'⟩ := ih still
    rw [Run.log, Run.log, nothing, uncounted, later, later']
    exact ⟨rfl, rfl⟩

theorem isOver_cons (max : Nat) (past past' : Bytes) (goes : m.isHangUp = false)
    (same : (readAll max (past ++ arrivals (m :: rest))).2.isTooLarge =
      (readAll max (past' ++ arrivals rest)).2.isTooLarge) :
    isOver max past (m :: rest) = isOver max past' rest := by
  rw [isOver, isOver, same, List.any_cons, goes, Bool.false_or]

def ending (s : Session) (moves : List Move) : List Command :=
  if isOver s.maxFrame s.pending moves then [s.leave] else []

/-- What a session submits and counts, of the bytes that it holds and those that come. -/
structure Handles (a : Attendance) (moves : List Move) : Prop where
  submitted : Run.log act submits a moves =
    a.session.commands (readAll a.session.maxFrame (a.session.pending ++ arrivals moves)).1 ++
      ending a.session moves
  counted : Run.log act counts a moves =
    List.replicate
      (garbageIn (readAll a.session.maxFrame (a.session.pending ++ arrivals moves)).1).length ()

theorem handles_nil (begun : next a.session.maxFrame a.session.pending = .incomplete) :
    a.Handles [] := by
  have read : readAll a.session.maxFrame (a.session.pending ++ arrivals []) =
      ([], endError a.session.pending) := by
    rw [arrivals, List.append_nil, readAll_incomplete begun]
  have going : (endError a.session.pending).isTooLarge = false := by
    rw [endError]
    split <;> rfl
  have stays : ending a.session [] = [] := by
    rw [ending, isOver, read, going]
    rfl
  constructor
  · rw [read, stays]
    rfl
  · rw [read]
    rfl

theorem handles_hangUp (going : a.session.isOpen)
    (begun : next a.session.maxFrame a.session.pending = .incomplete)
    (runs : a.timeline.scheduler.isStopped = false) : a.Handles (.hangUp :: rest) := by
  have moved : a.act .hangUp =
      ⟨a.session.ended, a.timeline.noting [a.session.leave] 0⟩ := by
    rw [act, Session.hangUp, Session.close_eq going runs]
  obtain ⟨submitted, counted⟩ := noted rfl moved
  have closed : (a.act .hangUp).session.isOpen = false := by rw [moved]; rfl
  obtain ⟨nothing, uncounted⟩ := closed_run closed rest
  have read : readAll a.session.maxFrame (a.session.pending ++ arrivals (.hangUp :: rest)) =
      ([], endError a.session.pending) := by
    rw [arrivals, List.append_nil, readAll_incomplete begun]
  constructor
  · rw [Run.log, submitted, nothing, read]
    rfl
  · rw [Run.log, counted, uncounted, read]
    rfl

theorem Handles.arrive {piece left : Bytes} {bodies : List Bytes}
    (whole : a.session.pending ++ piece = wire bodies ++ left)
    (allowed : ∀ body ∈ bodies, Allowed a.session.maxFrame body)
    (received : a.session.receive a.timeline piece =
      (a.session.holding left,
        a.timeline.noting (a.session.commands bodies) (garbageIn bodies).length))
    (later : (a.act (.arrive piece)).Handles rest) : a.Handles (.arrive piece :: rest) := by
  have moved : a.act (.arrive piece) = ⟨a.session.holding left,
      a.timeline.noting (a.session.commands bodies) (garbageIn bodies).length⟩ := by
    rw [act, received]
  obtain ⟨submitted, counted⟩ := noted rfl moved
  have stream : a.session.pending ++ arrivals (.arrive piece :: rest) =
      wire bodies ++ (left ++ arrivals rest) := by
    rw [arrivals, ← List.append_assoc, whole, List.append_assoc]
  have read := readAll_wire allowed (left ++ arrivals rest)
  rw [← stream] at read
  have finished : isOver a.session.maxFrame a.session.pending (.arrive piece :: rest) =
      isOver a.session.maxFrame left rest := isOver_cons _ _ _ rfl (by rw [read])
  have same : ending (a.session.holding left) rest =
      ending a.session (.arrive piece :: rest) := by
    rw [ending, ending, finished]
    rfl
  obtain ⟨submits', counts'⟩ := later
  rw [moved] at submits' counts'
  constructor
  · rw [Run.log, submitted, moved, submits', read, Session.commands_append, List.append_assoc,
      ← same]
    rfl
  · rw [Run.log, counted, moved, counts', read, garbageIn_append, List.length_append,
      ← List.replicate_append_replicate]
    rfl

theorem handles_refused {piece left : Bytes} {bodies : List Bytes} {size : Nat}
    (whole : a.session.pending ++ piece = wire bodies ++ left)
    (allowed : ∀ body ∈ bodies, Allowed a.session.maxFrame body)
    (above : next a.session.maxFrame left = .tooLarge size)
    (received : a.session.receive a.timeline piece =
      ((a.session.holding left).ended,
        a.timeline.noting (a.session.commands bodies ++ [a.session.leave])
          (garbageIn bodies).length)) :
    a.Handles (.arrive piece :: rest) := by
  have moved : a.act (.arrive piece) = ⟨(a.session.holding left).ended,
      a.timeline.noting (a.session.commands bodies ++ [a.session.leave])
        (garbageIn bodies).length⟩ := by
    rw [act, received]
  obtain ⟨submitted, counted⟩ := noted rfl moved
  have closed : (a.act (.arrive piece)).session.isOpen = false := by rw [moved]; rfl
  obtain ⟨nothing, uncounted⟩ := closed_run closed rest
  -- The announcement is above the limit whatever comes behind it, so nothing more is read.
  have stream : a.session.pending ++ arrivals (.arrive piece :: rest) =
      wire bodies ++ (left ++ arrivals rest) := by
    rw [arrivals, ← List.append_assoc, whole, List.append_assoc]
  have refused := readAll_tooLarge (next_append_tooLarge above (arrivals rest))
  have read := readAll_wire allowed (left ++ arrivals rest)
  rw [← stream, refused, List.append_nil] at read
  have finished : isOver a.session.maxFrame a.session.pending (.arrive piece :: rest) := by
    rw [isOver, read, WireError.isTooLarge, Bool.or_true]
  constructor
  · rw [Run.log, submitted, nothing, read, ending, if_pos finished, List.append_nil]
  · rw [Run.log, counted, uncounted, read, List.append_nil]

theorem handles (moves : List Move) (going : a.session.isOpen)
    (begun : next a.session.maxFrame a.session.pending = .incomplete)
    (undisturbed : a.Undisturbed moves) : a.Handles moves := by
  -- Between two moves the session holds no complete frame: `begun` is what a move preserves.
  induction moves generalizing a with
  | nil => exact handles_nil begun
  | cons m rest ih =>
    cases m with
    | arrive piece =>
      obtain ⟨bodies, left, whole, allowed, ⟨incomplete, received⟩ | ⟨⟨size, above⟩, received⟩⟩ :=
        Session.receive_cases going undisturbed.now piece
      · have still : (a.act (.arrive piece)).session = a.session.holding left := by
          rw [act, received]
        have later : (a.act (.arrive piece)).Handles rest :=
          ih (by rw [still]; exact going) (by rw [still]; exact incomplete) undisturbed.later
        exact later.arrive whole allowed received
      · exact handles_refused whole allowed above received
    | hangUp => exact handles_hangUp going begun undisturbed.now
    | write =>
      obtain ⟨same, submitted, counted⟩ := act_write undisturbed.writesNow
      have later := ih (by rwa [same]) (by rwa [same]) undisturbed.later
      obtain ⟨submits', counts'⟩ := later
      rw [same] at submits' counts'
      constructor
      · rw [Run.log, submitted, submits', ending, ending, isOver_cons _ _ _ rfl rfl]
        rfl
      · rw [Run.log, counted, counts']
        rfl
    | elsewhere f =>
      obtain ⟨submits', counts'⟩ := ih (a := a.act (.elsewhere f)) going begun undisturbed.later
      constructor
      · rw [Run.log, submits', ending, ending, isOver_cons _ _ _ rfl rfl]
        rfl
      · rw [Run.log, counts']
        rfl

def begin (agent : String) (channel : Channel) (maxFrame : Nat) (t : Timeline) : Attendance :=
  ⟨.start agent channel maxFrame, t⟩

/-- A session submits the envelopes in its stream, in their order, and when the stream ends or
announces a frame above the limit it leaves, once. A frame that holds no envelope is counted, and
nothing else comes of it. -/
theorem submits_exact {agent : String} {channel : Channel} {maxFrame : Nat} {t : Timeline}
    {moves : List Move} (undisturbed : (begin agent channel maxFrame t).Undisturbed moves) :
    let read := readAll maxFrame (arrivals moves)
    Run.log act submits (begin agent channel maxFrame t) moves =
      (envelopesIn read.1).map (.envelope agent) ++
        (if moves.any Move.isHangUp || read.2.isTooLarge then [.disconnectSession agent channel]
          else []) ∧
    (Run.log act counts (begin agent channel maxFrame t) moves).length =
      (garbageIn read.1).length := by
  have begun : next maxFrame [] = .incomplete := rfl
  obtain ⟨submitted, counted⟩ := handles moves rfl begun undisturbed
  refine ⟨submitted, ?_⟩
  rw [counted, List.length_replicate]
  rfl

def inquiry : Envelope := .message "sale" "seller" (.text "hello")

theorem submits_exact_inquiry :
    let stream := wire [[], Wire.encode inquiry]
    let moves : List Move :=
      [.arrive (stream.take 7), .elsewhere fun t => { t with now := 1 }, .arrive (stream.drop 7),
        .hangUp]
    let a := begin "buyer" 1 200 (.start default)
    a.Undisturbed moves ∧
      Run.log act submits a moves = [.envelope "buyer" inquiry, .disconnectSession "buyer" 1] ∧
      (Run.log act counts a moves).length = 1 := by
  intro stream moves a
  have calm (xs ys : Bytes) : a.Undisturbed [.arrive xs, .elsewhere fun t => { t with now := 1 },
      .arrive ys, .hangUp] := by
    have first := runs_arrive (a := a) rfl xs
    have second := runs_arrive (a := (a.act (.arrive xs)).act
      (.elsewhere fun t => { t with now := 1 })) first ys
    exact .cons rfl nofun <| .cons first nofun <| .cons first nofun <|
      .cons second nofun undisturbed_nil
  have allowed : ∀ body ∈ [[], Wire.encode inquiry], Allowed 200 body := by decide +kernel
  have read : readAll 200 (arrivals moves) = ([[], Wire.encode inquiry], .closed) := by
    have whole : arrivals moves = stream ++ [] := by
      simp only [moves, arrivals, ← List.append_assoc, List.take_append_drop]
    rw [whole, readAll_wire allowed, readAll_incomplete rfl]
    rfl
  have typed : (Wire.decode? (Wire.encode inquiry) : Option Envelope) = some inquiry :=
    LawfulWire.keepsValues.decode?_encode inquiry nofun nofun
  have empty : (Wire.decode? [] : Option Envelope) = none := by cbv
  have exact := submits_exact (calm (stream.take 7) (stream.drop 7))
  rw [show arrivals _ = arrivals moves from rfl, read] at exact
  have envelopes : envelopesIn [[], Wire.encode inquiry] = [inquiry] := by
    simp [envelopesIn, empty, typed]
  have garbage : garbageIn [[], Wire.encode inquiry] = [[]] := by
    simp [garbageIn, empty, typed]
  dsimp only at exact
  rw [envelopes, garbage] at exact
  exact ⟨calm _ _, exact⟩

end Attendance

end AgentBroker
