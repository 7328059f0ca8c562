import AgentBroker.Proofs.Connection.Writing
import AgentBroker.Proofs.Handshake.Mail

/-!
# A visit

A connection begins with a handshake and goes on with a session, which a reader and a writer attend
to in turns. All the time others use the scheduler, and the client does what it likes. Whatever has
come into the mailbox since the admission is written behind the verdict, in its order.
-/

namespace AgentBroker

open AgentBroker.Frame Wire Scheduler

/-- A connection with all that is around it. -/
structure Visit where
  entrance : Entrance
  session? : Option Session
  /-- What is left of the frame that is being written. -/
  left : Bytes

namespace Visit

def start (maxFrame : Nat) (patience : Nanos) (phrase : String) (channel : Channel)
    (timeline : Timeline) (room room' : Nat) : Visit :=
  ⟨.start maxFrame patience phrase channel timeline room room', none, []⟩

inductive Move where
  /-- The client, the others or the clock do something, or the gatekeeper takes a step. -/
  | around (m : Entrance.Move)
  /-- The session of an admitted agent begins. -/
  | enter
  /-- The reader takes at most so many bytes. -/
  | read (n : Nat)
  /-- The reader finds that the stream has ended, or that it is broken. -/
  | hangUp
  /-- The writer takes the next notice, if it is not busy with another one. -/
  | fetch
  /-- The writer puts in as many bytes as there is room for. -/
  | put

def keeper (v : Visit) : Gatekeeper := v.entrance.keeper

def timeline (v : Visit) : Timeline := v.entrance.seat.state.timeline

def broker (v : Visit) : Broker := v.timeline.broker

def channel (v : Visit) : Channel := v.entrance.seat.state.channel

def admitted? (v : Visit) : Option String :=
  match v.keeper.result? with
  | some (.ok id) => some id
  | _ => none

/-- What a move is at the entrance. A gatekeeper that has let an agent in leaves the stream to the
session. -/
def steps (v : Visit) : Move → List Entrance.Move
  | .around .go => if v.admitted?.isSome then [] else [.go]
  | .around m => [m]
  | _ => []

def become (v : Visit) (r : Session × Timeline) : Visit :=
  { v with session? := some r.1, entrance.seat.state.timeline := r.2 }

def attend (v : Visit) (f : Session → Visit) : Visit :=
  match v.session? with
  | some s => if s.isOpen then f s else v
  | none => v

def push (v : Visit) (s : Session) : Visit :=
  if v.left = [] then v
  else if v.entrance.sink.isOpen then
    { v with
      left := v.left.drop v.entrance.sink.room, entrance.sink := v.entrance.sink.put v.left }
  else v.become (s.close v.timeline)

def act (v : Visit) : Move → Visit
  | .around m => { v with entrance := v.entrance.after (v.steps (.around m)) }
  | .enter =>
    match v.session?, v.admitted? with
    | none, some id => { v with session? := some (.start id v.channel v.keeper.maxFrame) }
    | _, _ => v
  | .read n => v.attend fun s =>
    let (bytes, source) := v.entrance.source.take n
    { v with entrance.source := source }.become (s.receive v.timeline bytes)
  | .hangUp => v.attend fun s => v.become (s.hangUp v.timeline)
  | .fetch => v.attend fun s =>
    if v.left = [] then { v with left := (s.fetch v.timeline).1 }.become (s.fetch v.timeline).2
    else v
  | .put => v.attend v.push

/-- What is written, by the gatekeeper or in the session. -/
def writes (v : Visit) (m : Move) : Bytes :=
  match m with
  | .put => (v.act .put).entrance.sink.bytes.drop v.entrance.sink.bytes.length
  | m => v.entrance.written (v.steps m)

/-- What comes into the mailbox of the connection. -/
def arrives (channel : Channel) (v : Visit) (m : Move) : List Notice :=
  v.entrance.arrived channel (v.steps m)

def after (v : Visit) (moves : List Move) : Visit := Run.last act v moves

def written (v : Visit) (moves : List Move) : Bytes := Run.log act writes v moves

def arrived (channel : Channel) (v : Visit) (moves : List Move) : List Notice :=
  Run.log act (arrives channel) v moves

def stepped (v : Visit) (moves : List Move) : List Entrance.Move := Run.log act steps v moves

def heard (v : Visit) (moves : List Move) : List Reply :=
  Run.log act (fun v m => v.entrance.heard (v.steps m)) v moves

variable {v : Visit} {s : Session} {m : Move} {moves : List Move} {max : Nat}
  {phrase id : String} {channel : Channel} {written : Bytes} {queued : List Notice}

theorem steps_length_le (v : Visit) (m : Move) : (v.steps m).length ≤ 1 := by
  rw [steps.eq_def]
  split
  · split
    · exact Nat.zero_le _
    · exact Nat.le_refl _
  · exact Nat.le_refl _
  · exact Nat.zero_le _

/-- All that a move can do: what it is at the entrance, and what is written. -/
inductive Turn (v : Visit) : List Entrance.Move → Bytes → Visit → Prop
  | around (ms : List Entrance.Move) :
      Turn v ms (v.entrance.written ms) { v with entrance := v.entrance.after ms }
  | enters {id : String} (none : v.session? = none) (admitted : v.admitted? = some id) :
      Turn v [] [] { v with session? := some (.start id v.channel v.keeper.maxFrame) }
  | reads {s : Session} {r : Session × Timeline} (source : Pipe) (session : v.session? = some s)
      (isOpen : s.isOpen) (same : s.SameMail v.timeline r) :
      Turn v [] [] ({ v with entrance.source := source }.become r)
  | fetches {s : Session} {r : Bytes × Session × Timeline} (session : v.session? = some s)
      (isOpen : s.isOpen) (free : v.left = []) (fetch : s.Fetch v.timeline r) :
      Turn v [] [] ({ v with left := r.1 }.become r.2)
  | puts {s : Session} (session : v.session? = some s) (isOpen : s.isOpen) (n : Nat) (sink : Pipe) :
      Turn v [] (v.left.take n) { v with left := v.left.drop n, entrance.sink := sink }

theorem attend_cases (v : Visit) (f : Session → Visit) :
    v.attend f = v ∨ ∃ s, v.session? = some s ∧ s.isOpen ∧ v.attend f = f s := by
  rw [attend]
  split
  next s session =>
    split
    next isOpen => exact .inr ⟨s, session, isOpen, rfl⟩
    · exact .inl rfl
  · exact .inl rfl

theorem turn_attend (f : Session → Visit)
    (goes : ∀ s, v.session? = some s → s.isOpen → Turn v [] [] (f s)) :
    Turn v [] [] (v.attend f) := by
  rcases v.attend_cases f with idle | ⟨s, session, isOpen, attends⟩
  · rw [idle]
    exact .around []
  · rw [attends]
    exact goes s session isOpen

theorem turn (v : Visit) (m : Move) : Turn v (v.steps m) (v.writes m) (v.act m) := by
  have rests : Turn v [] [] v := .around []
  cases m with
  | around m => exact .around (v.steps (.around m))
  | enter =>
    change Turn v [] [] _
    rw [act]
    split
    next none admitted => exact .enters none admitted
    · exact rests
  | read n =>
    exact turn_attend _ fun s session isOpen =>
      .reads _ session isOpen (s.sameMail_receive _ _)
  | hangUp =>
    exact turn_attend _ fun s session isOpen =>
      .reads v.entrance.source session isOpen (s.sameMail_close _)
  | fetch =>
    refine turn_attend _ fun s session isOpen => ?_
    split
    next free => exact .fetches session isOpen free (s.fetch_eq _)
    · exact rests
  | put =>
    have silent {v' : Visit} (same : v.act .put = v')
        (sink : v'.entrance.sink = v.entrance.sink) : v.writes .put = [] := by
      rw [writes, same, sink, List.drop_length]
    change Turn v [] _ (v.attend v.push)
    rcases v.attend_cases v.push with idle | ⟨s, session, isOpen, pushes⟩
    · rw [silent idle rfl, idle]
      exact rests
    · rw [push] at pushes
      by_cases free : v.left = []
      · rw [if_pos free] at pushes
        rw [silent pushes rfl, pushes]
        exact rests
      · rw [if_neg free] at pushes
        by_cases goes : v.entrance.sink.isOpen
        · rw [if_pos goes] at pushes
          have out : v.writes .put = v.left.take v.entrance.sink.room := by
            rw [writes, act, pushes, Pipe.put, List.drop_left]
          rw [out, pushes]
          exact .puts session isOpen _ _
        · rw [if_neg goes] at pushes
          rw [silent pushes rfl, pushes]
          exact .reads v.entrance.source session isOpen (s.sameMail_close _)

theorem Turn.unattended {ms : List Entrance.Move} {out : Bytes} {v' : Visit}
    (turn : Turn v ms out v') (behind : v'.session? = none) :
    v.session? = none ∧ v' = { v with entrance := v.entrance.after ms } ∧
      out = v.entrance.written ms := by
  cases turn with
  | around => exact ⟨behind, rfl, rfl⟩
  | puts session => exact absurd (session.symm.trans behind) (Option.some_ne_none _)
  | _ => cases behind

theorem session?_eq_none {rest : List Move}
    (nobody : (v.after (moves ++ rest)).session? = none) : (v.after moves).session? = none := by
  induction rest using List.reverseRecOn with
  | nil => rwa [List.append_nil] at nobody
  | append_singleton rest m ih =>
    rw [← List.append_assoc, after, Run.last_concat] at nobody
    exact ih (((v.after (moves ++ rest)).turn m).unattended nobody).1

/-- Until the session begins, all that happens happens at the entrance. -/
structure Unattended (v : Visit) (moves : List Move) : Prop where
  after : v.after moves = { v with entrance := v.entrance.after (v.stepped moves) }
  written : v.written moves = v.entrance.written (v.stepped moves)
  arrived : ∀ channel, v.arrived channel moves = v.entrance.arrived channel (v.stepped moves)
  heard : v.heard moves = v.entrance.heard (v.stepped moves)

theorem unattended (none : (v.after moves).session? = none) : v.Unattended moves := by
  induction moves using List.reverseRecOn with
  | nil => exact ⟨rfl, rfl, fun _ => rfl, rfl⟩
  | append_singleton moves m ih =>
    rw [after, Run.last_concat] at none
    obtain ⟨before, moved, wrote⟩ := ((v.after moves).turn m).unattended none
    obtain ⟨after_eq, written_eq, arrived_eq, heard_eq⟩ := ih before
    have entrance : (v.after moves).entrance = v.entrance.after (v.stepped moves) := by
      rw [after_eq]
    have stepped_eq : v.stepped (moves ++ [m]) = v.stepped moves ++ (v.after moves).steps m :=
      Run.log_concat _ _ _
    constructor
    · rw [after, Run.last_concat, stepped_eq, Entrance.after, Run.last_append]
      refine moved.trans ?_
      rw [entrance, after_eq]
      rfl
    · rw [stepped_eq]
      refine (Run.log_concat _ _ _).trans (Eq.trans ?_ (Run.log_append _ _ _).symm)
      refine congrArg₂ (· ++ ·) written_eq (wrote.trans ?_)
      rw [entrance]
      rfl
    · intro channel
      rw [stepped_eq]
      refine (Run.log_concat _ _ _).trans (Eq.trans ?_ (Run.log_append _ _ _).symm)
      refine congrArg₂ (· ++ ·) (arrived_eq channel) ?_
      exact congrArg (Entrance.arrived channel · _) entrance
    · rw [stepped_eq]
      refine (Run.log_concat _ _ _).trans (Eq.trans ?_ (Run.log_append _ _ _).symm)
      refine congrArg₂ (· ++ ·) heard_eq ?_
      exact congrArg (Entrance.heard · _) entrance

theorem mem_steps {m' : Entrance.Move} (mem : m' ∈ v.steps m) : m = .around m' := by
  rw [steps.eq_def] at mem
  split at mem
  · split at mem
    · cases mem
    · exact congrArg Move.around (List.mem_singleton.mp mem).symm
  · exact congrArg Move.around (List.mem_singleton.mp mem).symm
  · cases mem

theorem steps_admitted (admitted : v.admitted?.isSome) : .go ∉ v.steps m := by
  intro mem
  rw [mem_steps mem, steps, if_pos admitted] at mem
  cases mem

theorem entrance_still {e : Entrance} {ms : List Entrance.Move} (still : .go ∉ ms) :
    (e.after ms).keeper = e.keeper ∧ e.written ms = [] := by
  induction ms generalizing e with
  | nil => exact ⟨rfl, rfl⟩
  | cons m rest ih =>
    obtain ⟨first, later⟩ := not_or.mp (fun either => still (List.mem_cons.mpr either))
    obtain ⟨keeper, silent⟩ := ih later (e := e.act m)
    have own : (e.act m).keeper = e.keeper ∧ e.writes m = [] := by
      cases m with
      | go => exact absurd rfl first
      | send piece =>
        rw [Entrance.act]
        split
        · exact ⟨rfl, rfl⟩
        · exact ⟨rfl, rfl⟩
      | _ => exact ⟨rfl, rfl⟩
    exact ⟨keeper.trans own.1, List.append_eq_nil_iff.mpr ⟨own.2, silent⟩⟩

theorem wire_concat (ns : List Notice) (n : Notice) :
    wire ((ns ++ [n]).map encode) = wire (ns.map encode) ++ framed (encode n) := by
  simp [wire]

/-- What has been written of the notices that have been taken out of the mailbox. -/
structure Told (max : Nat) (phrase : String) (written : Bytes) (queued taken : List Notice) :
    Prop where
  allowed : ∀ n ∈ taken, Allowed max (encode n)
  among : taken <+: queued
  begins : welcome phrase <+: written
  part : written <+: welcome phrase ++ wire (taken.map encode)

/-- The session of an agent that has been let in. As long as it lasts, nothing is lost. -/
structure Attended (max : Nat) (phrase id : String) (channel : Channel) (written : Bytes)
    (queued : List Notice) (v : Visit) (s : Session) (taken : List Notice) : Prop where
  session : v.session? = some s
  agent_eq : s.agent = id
  channel_eq : s.channel = channel
  max_eq : s.maxFrame = max
  admitted : v.admitted? = some id
  told : Told max phrase written queued taken
  out : s.isOpen → written ++ v.left = welcome phrase ++ wire (taken.map encode)
  waits : s.isOpen → taken ++ v.broker.mailboxes.contents channel = queued

theorem Told.extend {taken : List Notice} (h : Told max phrase written queued taken)
    (more : List Notice) : Told max phrase written (queued ++ more) taken :=
  ⟨h.allowed, h.among.trans (List.prefix_append _ _), h.begins, h.part⟩

theorem Told.write {taken : List Notice} {out left : Bytes}
    (h : Told max phrase written queued taken)
    (whole : written ++ out ++ left = welcome phrase ++ wire (taken.map encode)) :
    Told max phrase (written ++ out) queued taken :=
  ⟨h.allowed, h.among, h.begins.trans (List.prefix_append _ _), ⟨left, whole⟩⟩

theorem Told.take {taken rest : List Notice} {n : Notice}
    (h : Told max phrase written queued taken) (allowed : Allowed max (encode n))
    (waits : taken ++ n :: rest = queued) : Told max phrase written queued (taken ++ [n]) where
  allowed m mem := by
    rcases List.mem_append.mp mem with old | new
    · exact h.allowed m old
    · cases List.mem_singleton.mp new
      exact allowed
  among := ⟨rest, by rw [List.append_assoc]; exact waits⟩
  begins := h.begins
  part := by
    rw [wire_concat]
    exact h.part.trans ((List.prefix_append_right_inj _).mpr (List.prefix_append _ _))

section

variable {taken : List Notice} {v' : Visit}

theorem Attended.around (h : Attended max phrase id channel written queued v s taken)
    {ms : List Entrance.Move} (still : .go ∉ ms)
    (others : ∀ a, .elsewhere a ∈ ms → a.Respects channel) :
    Attended max phrase id channel (written ++ v.entrance.written ms)
      (queued ++ v.entrance.arrived channel ms) { v with entrance := v.entrance.after ms } s
      taken := by
  obtain ⟨keeper, silent⟩ := @entrance_still v.entrance ms still
  have contents := @Entrance.contents_after v.entrance channel ms others
  have same : ({ v with entrance := v.entrance.after ms } : Visit).admitted? = v.admitted? := by
    rw [admitted?, admitted?, Visit.keeper, keeper]
    rfl
  rw [silent, List.append_nil]
  refine ⟨h.session, h.agent_eq, h.channel_eq, h.max_eq, same.trans h.admitted, h.told.extend _,
    h.out, fun isOpen => (congrArg (taken ++ ·) contents).trans ?_⟩
  rw [← h.waits isOpen, List.append_assoc]
  rfl

theorem Attended.reads (h : Attended max phrase id channel written queued v s taken)
    {r : Session × Timeline} (source : Pipe) (isOpen : s.isOpen) (same : s.SameMail v.timeline r) :
    Attended max phrase id channel written queued
      ({ v with entrance.source := source }.become r) r.1 taken where
  session := rfl
  agent_eq := same.agent.trans h.agent_eq
  channel_eq := same.channel.trans h.channel_eq
  max_eq := same.maxFrame.trans h.max_eq
  admitted := h.admitted
  told := h.told
  out _ := h.out isOpen
  waits _ := by
    have contents := congrArg (·.contents channel) same.mailboxes
    exact (congrArg (taken ++ ·) contents).trans (h.waits isOpen)

theorem Attended.ends (h : Attended max phrase id channel written queued v s taken) (t : Timeline)
    (left : Bytes) :
    Attended max phrase id channel written queued ({ v with left }.become (s.close t)) (s.close t).1
      taken where
  session := rfl
  agent_eq := (s.sameMail_close t).agent.trans h.agent_eq
  channel_eq := (s.sameMail_close t).channel.trans h.channel_eq
  max_eq := (s.sameMail_close t).maxFrame.trans h.max_eq
  admitted := h.admitted
  told := h.told
  out isOpen := absurd isOpen (Bool.eq_false_iff.mp (s.isOpen_close t))
  waits isOpen := absurd isOpen (Bool.eq_false_iff.mp (s.isOpen_close t))

theorem Attended.fetches (h : Attended max phrase id channel written queued v s taken)
    {r : Bytes × Session × Timeline} (isOpen : s.isOpen) (free : v.left = [])
    (fetch : s.Fetch v.timeline r) :
    ∃ taken', Attended max phrase id channel written queued
      ({ v with left := r.1 }.become r.2) r.2.1 taken' := by
  have all := h.out isOpen
  rw [free, List.append_nil] at all
  cases fetch with
  | rests =>
    refine ⟨taken, rfl, h.agent_eq, h.channel_eq, h.max_eq, h.admitted, h.told, fun _ => ?_,
      h.waits⟩
    rw [← all]
    exact List.append_nil _
  | @takes n m _ first allowed =>
    have waits := h.waits isOpen
    rw [h.channel_eq] at first
    rw [broker, Mailboxes.contents_takeFirst? first] at waits
    rw [h.max_eq] at allowed
    refine ⟨taken ++ [n], rfl, h.agent_eq, h.channel_eq, h.max_eq, h.admitted,
      h.told.take allowed waits, fun _ => ?_, fun _ => ?_⟩
    · rw [all, wire_concat, List.append_assoc]
      rfl
    · rw [← waits, List.append_assoc]
      rfl
  | ends => exact ⟨taken, h.ends _ _⟩
  | breaks => exact ⟨taken, h.ends _ _⟩

theorem Attended.puts (h : Attended max phrase id channel written queued v s taken)
    (isOpen : s.isOpen) (n : Nat) (sink : Pipe) :
    Attended max phrase id channel (written ++ v.left.take n) queued
      { v with left := v.left.drop n, entrance.sink := sink } s taken := by
  have whole : written ++ v.left.take n ++ v.left.drop n =
      welcome phrase ++ wire (taken.map encode) := by
    rw [List.append_assoc, List.take_append_drop]
    exact h.out isOpen
  exact ⟨h.session, h.agent_eq, h.channel_eq, h.max_eq, h.admitted, h.told.write whole,
    fun _ => whole, h.waits⟩

theorem Attended.turn (h : Attended max phrase id channel written queued v s taken)
    {ms : List Entrance.Move} {out : Bytes} (turn : Turn v ms out v') (still : .go ∉ ms)
    (others : ∀ a, .elsewhere a ∈ ms → a.Respects channel) :
    ∃ s' taken', Attended max phrase id channel (written ++ out)
      (queued ++ v.entrance.arrived channel ms) v' s' taken' := by
  have nothing : queued ++ v.entrance.arrived channel [] = queued := List.append_nil _
  cases turn with
  | around => exact ⟨s, taken, h.around still others⟩
  | enters none => exact absurd (h.session.symm.trans none) (Option.some_ne_none _)
  | reads source session isOpen same =>
    cases session.symm.trans h.session
    rw [nothing, List.append_nil]
    exact ⟨_, taken, h.reads source isOpen same⟩
  | fetches session isOpen free fetch =>
    cases session.symm.trans h.session
    rw [nothing, List.append_nil]
    exact ⟨_, h.fetches isOpen free fetch⟩
  | puts session isOpen n sink =>
    cases session.symm.trans h.session
    rw [nothing]
    exact ⟨s, taken, h.puts isOpen n sink⟩

theorem attended_after (h : Attended max phrase id channel written queued v s taken)
    (others : ∀ a, .around (.elsewhere a) ∈ moves → a.Respects channel) :
    ∃ s' taken', Attended max phrase id channel (written ++ v.written moves)
      (queued ++ v.arrived channel moves) (v.after moves) s' taken' := by
  induction moves generalizing v s written queued taken with
  | nil =>
    refine ⟨s, taken, ?_⟩
    rw [Visit.written, Visit.arrived, Run.log, Run.log, List.append_nil, List.append_nil]
    exact h
  | cons m rest ih =>
    have still : .go ∉ v.steps m := steps_admitted (h.admitted ▸ rfl)
    have now (a : Action Unit) (mem : .elsewhere a ∈ v.steps m) : a.Respects channel :=
      others a (mem_steps mem ▸ List.mem_cons_self)
    obtain ⟨s', taken', next⟩ := h.turn (v.turn m) still now
    have later := ih next fun a mem => others a (List.mem_cons_of_mem _ mem)
    rw [List.append_assoc, List.append_assoc] at later
    exact later

theorem Turn.entered {ms : List Entrance.Move} {out : Bytes} {v' : Visit} (turn : Turn v ms out v')
    (before : v.session? = none) (behind : v'.session? = some s) :
    ∃ id, v.admitted? = some id ∧ ms = [] ∧ out = [] ∧
      v' = { v with session? := some (.start id v.channel v.keeper.maxFrame) } := by
  cases turn with
  | around => exact absurd (behind.symm.trans before) (Option.some_ne_none _)
  | enters _ admitted => exact ⟨_, admitted, rfl, rfl, rfl⟩
  | reads _ session => exact absurd (session.symm.trans before) (Option.some_ne_none _)
  | fetches session => exact absurd (session.symm.trans before) (Option.some_ne_none _)
  | puts session => exact absurd (session.symm.trans before) (Option.some_ne_none _)

theorem exists_entering (before : v.session? = none) (behind : (v.after moves).session? = some s) :
    ∃ past m rest, moves = past ++ m :: rest ∧ (v.after past).session? = none ∧
      ((v.after past).act m).session?.isSome := by
  induction moves using List.reverseRecOn generalizing s with
  | nil => exact absurd (behind.symm.trans before) (Option.some_ne_none _)
  | append_singleton moves m ih =>
    cases session : (v.after moves).session? with
    | none =>
      rw [after, Run.last_concat] at behind
      exact ⟨moves, m, [], rfl, session, Option.isSome_iff_exists.mpr ⟨s, behind⟩⟩
    | some s' =>
      obtain ⟨past, m', rest, split, none, begins⟩ := ih session
      exact ⟨past, m', rest ++ [m], by rw [split]; simp, none, begins⟩

/-- Behind the moves `past` the broker admits the agent. Nothing has come into the mailbox yet. -/
structure Opening (v : Visit) (agent : String) (channel : Channel) (past : List Move) : Prop where
  nothing : v.arrived channel past = []
  admits : ∃ ticket before admission later,
    (v.after past).entrance.Admits agent channel ticket before admission later ∧
      (v.after past).broker.arrived channel before = []

theorem exists_opening_move {ticket : Ticket}
    (follows : Entrance.Follows max phrase channel [] [] [] [] v.entrance)
    (ticketed : v.entrance.scheduler.Ticketed)
    (reserved : v.entrance.Reserved channel (v.stepped moves))
    (none : (v.after moves).session? = none)
    (asked : v.entrance.asked (v.stepped moves) = [.connect id channel ticket])
    (admitted : v.entrance.heard (v.stepped moves) = [.admitted true]) :
    ∃ past rest, moves = past ++ .around .go :: rest ∧ Opening v id channel past := by
  obtain ⟨past', rest', before, admission, later, split, admits, nothing, nothing'⟩ :=
    Entrance.exists_opening follows ticketed reserved asked admitted
  obtain ⟨past, m, rest, whole, front, here⟩ := Run.exists_of_log_eq_append steps_length_le split
  have go : m = .around .go := mem_steps (here ▸ List.mem_singleton_self _)
  have unattended : v.Unattended past := Visit.unattended (session?_eq_none (whole ▸ none))
  subst front
  have entrance : (v.after past).entrance = v.entrance.after (v.stepped past) := by
    rw [unattended.after]
  refine ⟨past, rest, go ▸ whole, (unattended.arrived channel).trans nothing, ticket, before,
    admission, later, ?_, ?_⟩
  · rw [entrance]
    exact admits
  · exact (congrArg (fun e => e.broker.arrived channel before) entrance).trans nothing'

theorem stage_of_admitted (admitted : v.admitted? = some id) :
    v.keeper.stage = .ended (.ok id) := by
  rw [admitted?] at admitted
  split at admitted
  next result =>
    cases admitted
    exact Gatekeeper.result?_eq_some_iff.mp result
  · cases admitted

/-- What the gatekeeper has done for an agent that it has let in. -/
structure LetIn (max : Nat) (phrase id : String) (channel : Channel) (v : Visit)
    (moves : List Move) : Prop where
  channel_eq : (v.after moves).channel = channel
  max_eq : (v.after moves).keeper.maxFrame = max
  said : v.written moves = welcome phrase
  challenge : Allowed max (challengeBody phrase)
  verdict : Allowed max (verdictBody true)
  admitted : ∃ ticket, v.entrance.asked (v.stepped moves) = [.connect id channel ticket] ∧
    v.entrance.heard (v.stepped moves) = [.admitted true]

theorem Unattended.letIn (unattended : v.Unattended moves)
    (follows : Entrance.Follows max phrase channel [] [] [] [] v.entrance)
    (outAllowed : v.keeper.OutAllowed) (admitted : (v.after moves).admitted? = some id) :
    LetIn max phrase id channel v moves := by
  have entrance : (v.after moves).entrance = v.entrance.after (v.stepped moves) := by
    rw [unattended.after]
  have now := follows.run (v.stepped moves)
  have stage := stage_of_admitted admitted
  have out : (v.after moves).keeper.OutAllowed := by
    rw [Visit.keeper, entrance]
    exact Entrance.outAllowed_after outAllowed _
  rw [← entrance, ← unattended.written] at now
  have stands := now.stands
  rw [show (v.after moves).entrance.keeper.stage = _ from stage] at stands
  obtain ⟨id', ticket, asked, heard, same | verdict⟩ := stands.welcomed stands.accepted_id
  · cases same
    rw [Gatekeeper.OutAllowed, stage, show (v.after moves).keeper.maxFrame = _ from now.max_eq,
      show (v.after moves).keeper.phrase = _ from now.phrase_eq] at out
    obtain ⟨challenge, rest⟩ := List.forall_mem_cons.mp out
    exact ⟨now.channel_eq, now.max_eq, stands.accepted_id, challenge,
      List.forall_mem_singleton.mp rest, ticket, asked, heard⟩
  · cases verdict.1

theorem LetIn.attended (letIn : LetIn max phrase id channel v moves) (left : v.left = [])
    (unattended : v.Unattended moves)
    (reserved : v.entrance.Reserved channel (v.stepped moves))
    (admitted : (v.after moves).admitted? = some id) :
    Attended max phrase id channel (v.written moves) (v.arrived channel moves)
      { v.after moves with
        session? := some (.start id (v.after moves).channel (v.after moves).keeper.maxFrame) }
      (.start id (v.after moves).channel (v.after moves).keeper.maxFrame) [] := by
  have contents := @Entrance.contents_after v.entrance channel (v.stepped moves) reserved.others
  have entrance : (v.after moves).entrance = v.entrance.after (v.stepped moves) := by
    rw [unattended.after]
  have free : (v.after moves).left = [] := by rw [unattended.after, left]
  rw [reserved.empty, List.nil_append, ← unattended.arrived, ← entrance] at contents
  rw [letIn.said]
  refine ⟨rfl, rfl, letIn.channel_eq, letIn.max_eq, admitted, ⟨nofun, List.nil_prefix,
    List.prefix_rfl, List.prefix_append _ _⟩, fun _ => ?_, fun _ => contents⟩
  exact congrArg (_ ++ ·) free

/-- What the client of a connection is told, whatever happens around it. -/
structure Visiting (max : Nat) (phrase : String) (channel : Channel) (v : Visit)
    (moves : List Move) : Prop where
  /-- Without a session only the gatekeeper says something. -/
  unattended : (v.after moves).session? = none → Rebuff phrase (v.written moves) ∨
    v.heard moves = [.admitted true] ∧ v.written moves <+: welcome phrase
  /-- Nothing comes into the mailbox before the broker has admitted the agent. -/
  opens : ∀ s, (v.after moves).session? = some s → ∃ past rest,
    moves = past ++ .around .go :: rest ∧ Opening v s.agent channel past
  /-- Whole frames are the challenge, the verdict, and the first of the notices that have come. -/
  told : ∀ s, (v.after moves).session? = some s → ∃ told part, told <+: v.arrived channel moves ∧
    Splits max (v.written moves)
      (challengeBody phrase :: verdictBody true :: told.map encode) part
  /-- While the session lasts, all others are still to be written, in their order. -/
  waits : ∀ s, (v.after moves).session? = some s → s.isOpen →
    v.written moves ++ ((v.after moves).left ++
        wire (((v.after moves).broker.mailboxes.contents channel).map encode)) =
      welcome phrase ++ wire ((v.arrived channel moves).map encode)

theorem Attended.waiting {taken : List Notice} (isOpen : s.isOpen)
    (h : Attended max phrase id channel written queued v s taken) :
    written ++ (v.left ++ wire ((v.broker.mailboxes.contents channel).map encode)) =
      welcome phrase ++ wire (queued.map encode) := by
  rw [← List.append_assoc, h.out isOpen, ← h.waits isOpen, List.map_append, wire, wire, wire,
    List.flatMap_append, List.append_assoc]

theorem Told.splits {taken : List Notice} (h : Told max phrase written queued taken)
    (challenge : Allowed max (challengeBody phrase)) (verdict : Allowed max (verdictBody true)) :
    ∃ told part, told <+: queued ∧
      Splits max written (challengeBody phrase :: verdictBody true :: told.map encode) part := by
  obtain ⟨more, rfl⟩ := h.begins
  have behind := (List.prefix_append_right_inj _).mp h.part
  have allowed : ∀ body ∈ taken.map encode, Allowed max body :=
    List.forall_mem_map.mpr h.allowed
  obtain ⟨front, part, among, splits⟩ := exists_splits_of_prefix allowed behind
  obtain ⟨told, first, rfl⟩ := List.prefix_map_iff.mp among
  refine ⟨told, part, first.trans h.among, ?_⟩
  rw [welcome, List.append_assoc]
  exact (splits.cons verdict).cons challenge

/-- The mailbox of a connection, and its tickets, are its own. -/
structure Reserved (channel : Channel) (v : Visit) (moves : List Move) : Prop where
  ticketed : v.entrance.scheduler.Ticketed
  unclaimed : v.entrance.Unclaimed channel
  empty : v.broker.mailboxes.contents channel = []
  others : ∀ a, .around (.elsewhere a) ∈ moves → a.Respects channel

theorem Reserved.entrance (h : v.Reserved channel moves) {past rest : List Move}
    (split : moves = past ++ rest) : v.entrance.Reserved channel (v.stepped past) where
  unclaimed := h.unclaimed
  empty := h.empty
  others a mem := by
    obtain ⟨before, m, later, whole, steps⟩ := Run.exists_of_mem_log mem
    refine h.others a ?_
    rw [split, whole, mem_steps steps]
    simp

theorem exists_attended (begun : v.session? = none ∧ v.left = [])
    (follows : Entrance.Follows max phrase channel [] [] [] [] v.entrance)
    (outAllowed : v.keeper.OutAllowed) (reserved : v.Reserved channel moves)
    (session : (v.after moves).session? = some s) :
    (∃ taken, Attended max phrase s.agent channel (v.written moves) (v.arrived channel moves)
      (v.after moves) s taken) ∧
    (∃ past rest, moves = past ++ .around .go :: rest ∧ Opening v s.agent channel past) ∧
    Allowed max (challengeBody phrase) ∧ Allowed max (verdictBody true) := by
  obtain ⟨past, m, rest, split, none, begins⟩ := exists_entering begun.1 session
  obtain ⟨s₀, session₀⟩ := Option.isSome_iff_exists.mp begins
  obtain ⟨id, admitted, steps, silent, enters⟩ := ((v.after past).turn m).entered none session₀
  have unattended : v.Unattended past := Visit.unattended none
  have own := reserved.entrance split
  have letIn := unattended.letIn follows outAllowed admitted
  obtain ⟨ticket, asked, heard⟩ := letIn.admitted
  obtain ⟨before, between, whole, opening⟩ :=
    exists_opening_move follows reserved.ticketed own none asked heard
  have entered := letIn.attended begun.2 unattended own admitted
  rw [← enters] at entered
  obtain ⟨s', taken, last⟩ := attended_after entered fun a mem =>
    reserved.others a (split ▸ List.mem_append_right _ (List.mem_cons_of_mem _ mem))
  have behind : v.after moves = ((v.after past).act m).after rest := by
    rw [split, after, Run.last_append]
    rfl
  have written_eq : v.written moves = v.written past ++ ((v.after past).act m).written rest := by
    rw [split, Visit.written, Run.log_append]
    exact congrArg (fun out => _ ++ (out ++ _)) silent
  have arrived_eq : v.arrived channel moves =
      v.arrived channel past ++ ((v.after past).act m).arrived channel rest := by
    rw [split, Visit.arrived, Run.log_append]
    exact congrArg (fun ms => _ ++ ((v.after past).entrance.arrived channel ms ++ _)) steps
  rw [← behind, ← written_eq, ← arrived_eq] at last
  cases last.session.symm.trans session
  rw [last.agent_eq]
  refine ⟨⟨taken, last⟩, ⟨before, between ++ m :: rest, ?_, opening⟩, letIn.challenge,
    letIn.verdict⟩
  rw [split, whole]
  simp

end

/-- Whatever the client and others do, nothing goes out before the verdict but the challenge, and
behind the verdict goes what has come since the admission, in its order. -/
theorem visiting (maxFrame : Nat) (patience : Nanos) (phrase : String) (channel : Channel)
    (timeline : Timeline) (room room' : Nat) {moves : List Move}
    (reserved : (start maxFrame patience phrase channel timeline room room').Reserved channel
      moves) :
    Visiting maxFrame phrase channel
      (start maxFrame patience phrase channel timeline room room') moves := by
  generalize begun : start maxFrame patience phrase channel timeline room room' = v at reserved
  have follows : Entrance.Follows maxFrame phrase channel [] [] [] [] v.entrance :=
    begun ▸ Entrance.follows_start maxFrame patience phrase channel timeline room room'
  have fresh : v.session? = none ∧ v.left = [] := begun ▸ ⟨rfl, rfl⟩
  have outAllowed : v.keeper.OutAllowed := begun ▸ nofun
  constructor
  case unattended =>
    intro none
    have unattended := Visit.unattended none
    rw [unattended.written, unattended.heard]
    exact (follows.run _).stands.told
  case opens =>
    intro s session
    exact (exists_attended fresh follows outAllowed reserved session).2.1
  case told =>
    intro s session
    obtain ⟨⟨taken, attended⟩, -, challenge, verdict⟩ :=
      exists_attended fresh follows outAllowed reserved session
    exact attended.told.splits challenge verdict
  case waits =>
    intro s session isOpen
    obtain ⟨⟨taken, attended⟩, -⟩ := exists_attended fresh follows outAllowed reserved session
    exact attended.waiting isOpen

/-- Another agent writes to one that has been admitted and has not been told so. -/
def writesEarly (phrase : String) : List Move :=
  [.around (.elsewhere (.request () (Gate.admission "b" 2))), .around (.elsewhere (.work 0 0)),
    .around (.send (framed (encode (Introduction.mk "a")) ++
      framed (encode (Answer.mk (answerTo phrase)))))] ++
    List.replicate 9 (.around .go) ++
  [.around (.elsewhere (.post () ⟨.envelope "b" (.message "c" "a" (.text "hi")), rfl⟩)),
    .around (.elsewhere (.work 0 0)), .around .go, .around .go, .enter, .fetch, .put]

theorem visiting_writesEarly :
    let v := start 200 1000 "ab" 1 (.start default) 1000 1000
    let moves := writesEarly "ab"
    v.Reserved 1 moves ∧ Visiting 200 "ab" 1 v moves ∧
      v.written (moves.take 14) = framed (challengeBody "ab") ∧
      (v.arrived 1 (moves.take 14)).length = 1 ∧
      v.written moves =
        welcome "ab" ++ framed (encode (Notice.delivery "b" "c" (.text "hi"))) := by
  intro v moves
  have reserved : v.Reserved 1 moves := by
    refine ⟨ticketed_start _, ⟨nofun, Broker.usedOnlyBy_start _⟩, rfl, fun a mem => ?_⟩
    simp only [moves, writesEarly, List.mem_cons, List.mem_append, List.mem_replicate] at mem
    simp at mem
    rcases mem with (rfl | rfl) | rfl | rfl
    · exact fun _ => rfl
    · trivial
    · rfl
    · trivial
  refine ⟨reserved, visiting 200 1000 "ab" 1 (.start default) 1000 1000 reserved, ?_, ?_, ?_⟩
  · decide +kernel
  · decide +kernel
  · decide +kernel

end Visit

end AgentBroker
