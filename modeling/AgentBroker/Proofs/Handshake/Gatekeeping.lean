import AgentBroker.Proofs.Handshake.Undoing

/-!
# Gatekeeping

What a client and a scheduler can rely on at a gatekeeper, whatever the client does and whatever
others do meanwhile.
-/

namespace AgentBroker

open AgentBroker.Frame Scheduler

/-- All that an agent is told whom the broker has admitted. -/
def welcome (phrase : String) : Bytes :=
  framed (challengeBody phrase) ++ framed (verdictBody true)

/-- What an agent is told, in whole or in part, whom the broker has not admitted. -/
def Rebuff (phrase : String) (written : Bytes) : Prop :=
  written <+: framed refusalBody ∨
    written <+: framed (challengeBody phrase) ++ framed (verdictBody false)

theorem verdicts_differ : ¬ framed (verdictBody true) <+: framed (verdictBody false) := by
  decide +kernel

theorem refusal_short : (framed refusalBody).length < (framed (verdictBody true)).length := by
  decide +kernel

theorem not_rebuff_welcome (phrase : String) : ¬ Rebuff phrase (welcome phrase) := by
  rintro (refusal | verdict)
  · have short := refusal.length_le
    rw [welcome, List.length_append] at short
    exact absurd refusal_short (by omega)
  · exact verdicts_differ ((List.prefix_append_right_inj _).mp verdict)

namespace GateStage

def isMute : GateStage → Bool
  | .withdrawal .. | .ended _ => true
  | _ => false

def isLost : GateStage → Bool
  | .withdrawal .. | .ended (.error _) => true
  | _ => false

/-- The messages that are out, unless the handshake has failed. -/
def out (phrase : String) : GateStage → List Bytes
  | .answer _ | .rejection _ | .admission _ | .verdict .. | .withdrawal .. => [challengeBody phrase]
  | .ended (.ok _) => [challengeBody phrase, verdictBody true]
  | _ => []

theorem isMute_of_isLost {stage : GateStage} (lost : stage.isLost) : stage.isMute := by
  cases stage with
  | withdrawal | ended => rfl
  | _ => cases lost

end GateStage

namespace Gatekeeper

variable {k : Gatekeeper}

theorem idle_of_mute (mute : k.stage.isMute) :
    k.stage.reads = false ∧ k.tells? = none ∧ ∀ id, k.stage ≠ .admission id := by
  rw [tells?]
  cases stage : k.stage with
  | withdrawal | ended => exact ⟨rfl, rfl, by simp⟩
  | _ => rw [stage] at mute; cases mute

theorem result?_eq_some_iff {r : Except HandshakeError String} :
    k.result? = some r ↔ k.stage = .ended r := by
  rw [result?]
  cases k.stage with
  | ended r' =>
    constructor
    · intro same
      exact congrArg _ (Option.some.inj same)
    · intro same
      exact congrArg _ (GateStage.ended.inj same)
  | _ => exact ⟨nofun, nofun⟩

theorem lost_breakOff (k : Gatekeeper) (cause : HandshakeError) :
    (k.breakOff cause).stage.isLost := by
  rw [breakOff]
  split
  · rfl
  · rfl
  · rfl

def OutAllowed (k : Gatekeeper) : Prop := ∀ body ∈ k.stage.out k.phrase, Allowed k.maxFrame body

theorem OutAllowed.of_subset {k' : Gatekeeper} (h : k.OutAllowed) (same : k.SameSettings k')
    (fewer : k'.stage.out k.phrase ⊆ k.stage.out k.phrase) : k'.OutAllowed := by
  rw [OutAllowed, same.phrase, same.maxFrame]
  exact fun body mem => h body (fewer mem)

theorem OutAllowed.receive (h : k.OutAllowed) (frame : Bytes) : (k.receive frame).OutAllowed := by
  refine h.of_subset (.receive k frame) ?_
  rw [Gatekeeper.receive]
  split
  · split
    · exact List.nil_subset _
    · split <;> exact List.nil_subset _
  next id stage =>
    rw [stage]
    split
    · exact List.nil_subset _
    · split <;> exact List.Subset.refl _
  · exact List.Subset.refl _

theorem OutAllowed.breakOff (h : k.OutAllowed) (cause : HandshakeError) :
    (k.breakOff cause).OutAllowed := by
  refine h.of_subset (.breakOff k cause) ?_
  rw [Gatekeeper.breakOff]
  split
  next stage =>
    rw [stage]
    exact List.Subset.refl _
  · exact List.nil_subset _
  · exact List.nil_subset _

theorem OutAllowed.decide (h : k.OutAllowed) (now : Nanos) (admitted : Option Bool) :
    (k.decide now admitted).OutAllowed := by
  refine h.of_subset (.decide k now admitted) ?_
  unfold Gatekeeper.decide
  split
  next stage =>
    rw [stage]
    exact List.Subset.refl _
  · exact List.nil_subset _
  · exact List.Subset.refl _

theorem OutAllowed.withdraw (h : k.OutAllowed) (taken : Bool) : (k.withdraw taken).OutAllowed := by
  refine h.of_subset (.withdraw k taken) ?_
  rw [Gatekeeper.withdraw]
  split
  · exact List.nil_subset _
  · exact List.Subset.refl _

theorem OutAllowed.wrote (h : k.OutAllowed) {body : Bytes} (tells : k.tells? = some body)
    (allowed : Allowed k.maxFrame body) : k.wrote.OutAllowed := by
  have same := SameSettings.wrote k
  rw [OutAllowed, same.phrase, same.maxFrame]
  rw [OutAllowed] at h
  rw [tells?] at tells
  rw [Gatekeeper.wrote]
  split
  · exact List.forall_mem_nil _
  next stage =>
    rw [stage] at tells
    cases tells
    exact List.forall_mem_singleton.mpr allowed
  · exact List.forall_mem_nil _
  next stage =>
    rw [stage] at h tells
    cases tells
    exact List.forall_mem_cons.mpr ⟨h _ List.mem_cons_self, List.forall_mem_singleton.mpr allowed⟩
  · exact List.forall_mem_nil _
  · exact h

end Gatekeeper

namespace Entrance

variable {e : Entrance} {max : Nat} {phrase id : String} {channel : Channel} {moves : List Move}
  {given written seen left : Bytes} {gone : Nat} {stage : GateStage} {asked : List Command}
  {heard : List Reply}

theorem Turn.mute {v v' : View} {out : Bytes} {asks : List Command} {hears : List Reply}
    (turn : Turn channel v out asks hears v') (mute : v.keeper.stage.isMute) :
    v'.keeper = v.keeper ∨ ∃ id cause cause',
      v.keeper.stage = .withdrawal id cause ∧ v'.keeper.stage = .ended (.error cause') := by
  obtain ⟨unread, untold, unasked⟩ := Gatekeeper.idle_of_mute mute
  cases turn with
  | rests | reads | puts => exact .inl rfl
  | receives reads => rw [unread] at reads; cases reads
  | wrote tells => rw [untold] at tells; cases tells
  | breaksOff busy =>
    rw [unread, untold] at busy
    rcases busy with reads | ⟨body, tells⟩
    · cases reads
    · cases tells
  | asks stage => exact absurd stage (unasked _)
  | @withdraws id cause stage taken =>
    refine .inr ⟨id, cause, if taken then cause else .stopped, stage, ?_⟩
    rw [Gatekeeper.withdraw, stage]
    rfl

theorem ended_go {r : Except HandshakeError String} (ended : e.keeper.stage = .ended r) :
    e.go.keeper.stage = .ended r := by
  have mute : e.keeper.stage.isMute := by rw [ended]; rfl
  rcases e.turn_go.1.mute mute with same | ⟨id, cause, cause', stage, -⟩
  · exact (congrArg Gatekeeper.stage same).trans ended
  · cases ended.symm.trans stage

theorem lost_go (lost : e.keeper.stage.isLost) : e.go.keeper.stage.isLost := by
  rcases e.turn_go.1.mute (GateStage.isMute_of_isLost lost) with same | ⟨_, _, _, -, ended⟩
  · exact (congrArg (·.stage.isLost) same).trans lost
  · exact (congrArg GateStage.isLost ended).trans rfl

/-- The gatekeeper has to wait, and its time is over. -/
def Overdue (e : Entrance) : Prop :=
  e.seat.step? e.now e.source e.sink = none ∧ ∃ t, e.keeper.alarm? = some t ∧ t ≤ e.now

theorem lost_of_overdue (overdue : e.Overdue) : e.go.keeper.stage.isLost := by
  obtain ⟨waits, t, alarm, due⟩ := overdue
  have woken : e.seat.wake? e.now = some (e.seat.happen e.now .alarm) := by
    rw [Seat.wake?, show Party.alarm? e.seat.state = some t from alarm]
    exact if_pos due
  rw [go, waits, woken]
  have leads := e.seat.state.leads_step e.now (h := .alarm) (by simp)
  rw [keeper]
  exact leads.keeper.symm ▸ Gatekeeper.lost_breakOff _ _

theorem lost_act (lost : e.keeper.stage.isLost) (m : Move) : (e.act m).keeper.stage.isLost := by
  cases m with
  | go => exact lost_go lost
  | send piece =>
    rw [act]
    split
    · exact lost
    · exact lost
  | _ => exact lost

theorem lost_after (lost : e.keeper.stage.isLost) (moves : List Move) :
    (e.after moves).keeper.stage.isLost :=
  Run.last_induction (P := fun e => e.keeper.stage.isLost) (fun _ m h => lost_act h m) e lost moves

theorem Stands.told
    (h : Stands max phrase channel given stage seen gone left written asked heard) :
    Rebuff phrase written ∨ heard = [.admitted true] ∧ written <+: welcome phrase := by
  have further {out : Bytes} {admitted : Bool} (part : out <+: framed (verdictBody admitted)) :
      framed (challengeBody phrase) ++ out <+:
        framed (challengeBody phrase) ++ framed (verdictBody admitted) :=
    (List.prefix_append_right_inj _).mpr part
  cases h with
  | introduction => exact .inl (.inl List.nil_prefix)
  | refusal out => exact .inl (.inl (out ▸ outOf_isPrefix _ _ _))
  | challenge _ _ out =>
    exact .inl (.inr (out ▸ (outOf_isPrefix _ _ _).trans (List.prefix_append _ _)))
  | answer | admission => exact .inl (.inr (List.prefix_append _ _))
  | rejection out => exact .inl (.inr (out ▸ further (outOf_isPrefix _ _ _)))
  | @verdict _ _ _ _ _ admitted _ _ out =>
    cases admitted with
    | true => exact .inr ⟨rfl, out ▸ further (outOf_isPrefix _ _ _)⟩
    | false => exact .inl (.inr (out ▸ further (outOf_isPrefix _ _ _)))
  | withdrawal _ part | withdrawn _ part => exact .inr ⟨rfl, further part⟩
  | accepted => exact .inr ⟨rfl, List.prefix_rfl⟩
  | refused part => exact .inl part
  | denied _ _ part => exact .inl (.inr (further part))

theorem Turn.outAllowed {v v' : View} {out : Bytes} {asks : List Command} {hears : List Reply}
    (turn : Turn channel v out asks hears v') (h : v.keeper.OutAllowed) : v'.keeper.OutAllowed := by
  cases turn with
  | rests | reads | puts => exact h
  | receives => exact h.receive _
  | wrote tells allowed => exact h.wrote tells allowed
  | breaksOff => exact h.breakOff _
  | asks => exact h.decide _ _
  | withdraws => exact h.withdraw _

theorem outAllowed_act (h : e.keeper.OutAllowed) (m : Move) : (e.act m).keeper.OutAllowed := by
  cases m with
  | go => exact e.turn_go.1.outAllowed h
  | send piece =>
    rw [act]
    split
    · exact h
    · exact h
  | _ => exact h

theorem outAllowed_after (h : e.keeper.OutAllowed) (moves : List Move) :
    (e.after moves).keeper.OutAllowed :=
  Run.last_induction (P := fun e => e.keeper.OutAllowed) (fun _ m h => outAllowed_act h m) e h moves

theorem Stands.welcomed
    (h : Stands max phrase channel given stage seen gone left written asked heard)
    (whole : written = welcome phrase) :
    ∃ id ticket, asked = [.connect id channel ticket] ∧ heard = [.admitted true] ∧
      (stage = .ended (.ok id) ∨
        stage = .verdict id true ∧
          outOf max (verdictBody true) gone = framed (verdictBody true)) := by
  have admitted := h.told.resolve_left fun rebuff => not_rebuff_welcome phrase (whole ▸ rebuff)
  have verdict {out : Bytes} (all : framed (challengeBody phrase) ++ out = welcome phrase) :
      out = framed (verdictBody true) := List.append_cancel_left all
  cases h with
  | verdict _ out =>
    cases admitted.1
    exact ⟨_, _, rfl, rfl, .inr ⟨rfl, verdict (out ▸ whole)⟩⟩
  | accepted => exact ⟨_, _, rfl, rfl, .inl rfl⟩
  | withdrawal _ _ short => exact absurd (verdict whole) short
  | withdrawn _ _ short => exact absurd (verdict whole) short
  | denied _ no => exact absurd (List.head_eq_of_cons_eq admitted.1) no
  | _ => cases admitted.1

theorem Stands.accepted_id
    (h : Stands max phrase channel given (.ended (.ok id)) seen gone left written asked heard) :
    written = welcome phrase := by
  cases h with
  | accepted => rfl

theorem result?_go (stage : e.keeper.stage = .verdict id true)
    (whole : outOf e.keeper.maxFrame (verdictBody true) e.seat.gone = framed (verdictBody true)) :
    e.go.keeper.result? = some (.ok id) := by
  have allowed : Allowed e.keeper.maxFrame (verdictBody true) := by
    by_contra above
    rw [outOf, if_neg above] at whole
    exact framed_ne_nil _ whole.symm
  have out : (framed (verdictBody true)).drop e.seat.gone = [] := by
    by_contra waits
    exact outOf_ne (fun _ => waits) whole
  have tells : e.keeper.tells? = some (verdictBody true) := by
    rw [Gatekeeper.tells?, stage]
    rfl
  have need : Party.need e.seat.state = .write (.ok (framed (verdictBody true))) := by
    rw [← write?_eq_ok allowed]
    exact Gatekeeper.need_tells tells
  have stepped : e.seat.step? e.now e.source e.sink =
      some (e.seat.happen e.now (.written (.ok ())), e.source, e.sink) := by
    rw [Seat.step?, need]
    exact if_pos out
  have leads := e.seat.state.leads_step e.now (h := .written (.ok ())) (by simp)
  have next : e.go.keeper = e.keeper.wrote := by
    rw [go, stepped]
    exact leads.keeper
  rw [next, Gatekeeper.wrote, stage]
  rfl

theorem Stands.asked_once
    (h : Stands max phrase channel given stage seen gone left written asked heard) :
    asked = [] ∧ heard = [] ∨ ∃ id ticket r, Identifies max phrase given id ∧ heard = [r] ∧
      (asked = [.connect id channel ticket] ∨
        r = .admitted true ∧ asked = [.connect id channel ticket, .disconnect id]) := by
  cases h with
  | verdict knows | withdrawal knows | accepted knows | denied knows =>
    exact .inr ⟨_, _, _, knows, rfl, .inl rfl⟩
  | withdrawn knows => exact .inr ⟨_, _, _, knows, rfl, .inr ⟨rfl, rfl⟩⟩
  | _ => exact .inl ⟨rfl, rfl⟩

theorem Stands.admitted_of_disconnect {ticket : Ticket}
    (h : Stands max phrase channel given stage seen gone left written asked heard)
    (both : asked = [.connect id channel ticket, .disconnect id]) : heard = [.admitted true] := by
  rcases h.asked_once with ⟨none, -⟩ | ⟨_, _, r, -, only, own | ⟨rfl, -⟩⟩
  · rw [both] at none
    cases none
  · rw [both] at own
    cases own
  · exact only

theorem Stands.asked_of_length
    (h : Stands max phrase channel given stage seen gone left written asked heard)
    (both : asked.length = 2) (passes : asked.all (·.passes id)) :
    ∃ ticket, asked = [.connect id channel ticket, .disconnect id] := by
  rcases h.asked_once with ⟨none, -⟩ | ⟨id', ticket, r, -, -, one | ⟨-, two⟩⟩
  · rw [none] at both
    cases both
  · rw [one] at both
    cases both
  · rw [two, List.all_cons, Bool.and_eq_true] at passes
    cases eq_of_beq passes.1
    exact ⟨ticket, two⟩

theorem Stands.withdrawn_of_error {cause : HandshakeError}
    (h : Stands max phrase channel given (.ended (.error cause)) seen gone left written asked heard)
    (admitted : heard = [.admitted true]) :
    ∃ id ticket, asked = [.connect id channel ticket, .disconnect id] := by
  cases h with
  | refused => cases admitted
  | denied _ no => exact absurd (List.head_eq_of_cons_eq admitted) no
  | withdrawn => exact ⟨_, _, rfl⟩

theorem queue_of_disconnect (mem : .disconnect id ∈ e.asked moves) :
    ∃ past rest, moves = past ++ .go :: rest ∧
      ((e.after past).scheduler.isStopped ∨
        (e.after (past ++ [.go])).scheduler.queue =
          (e.after past).scheduler.queue ++ [.disconnect id]) := by
  obtain ⟨past, m, rest, split, asks⟩ := Run.exists_of_mem_log mem
  obtain ⟨rfl, ⟨id', stage, asked⟩ | ⟨id', cause, stage, asked⟩⟩ := stage_of_asks asks
  · rw [asked] at asks
    cases List.mem_singleton.mp asks
  · rw [asked] at asks
    cases List.mem_singleton.mp asks
    refine ⟨past, rest, split, ?_⟩
    by_cases stopped : (e.after past).scheduler.isStopped
    · exact .inl stopped
    · rw [Entrance.after, Entrance.after, Run.last_concat]
      exact .inr (queue_withdrawal stage (Bool.eq_false_iff.mpr stopped))

theorem ticketed_after (ticketed : e.scheduler.Ticketed) (moves : List Move) :
    (e.after moves).scheduler.Ticketed := by
  refine Run.last_induction (P := fun e => e.scheduler.Ticketed) (fun e m h => ?_) e ticketed moves
  obtain ⟨f, scheduler⟩ := e.scheduler_act m
  have next := h.after (e.dealings m)
  rw [scheduler]
  exact ⟨next.queue, next.replies⟩

end Entrance

theorem Broker.isConnected_last {id : String} {b : Broker} {events : List Broker.Event}
    (connects : ∀ c ∈ Broker.commands events,
      c.concerns id = false ∨ ∃ channel ticket, c = .connect id channel ticket)
    (connected : b.isConnected id) : (Run.last Broker.after b events).isConnected id := by
  induction events generalizing b with
  | nil => exact connected
  | cons event rest ih =>
    have later (c : Command) (mem : c ∈ Broker.commands rest) :=
      connects c ((List.sublist_cons_self event rest).filterMap _ |>.subset mem)
    refine ih later ?_
    have apart (elsewhere : event.concerns id = false) : (b.after event).isConnected id := by
      rwa [isConnected_congr (b.session?_after_apart elsewhere)]
    cases event with
    | command now elapsed awaited c =>
      rcases connects c List.mem_cons_self with elsewhere | ⟨channel, ticket, rfl⟩
      · exact apart elsewhere
      · rw [after, apply, connect, if_pos connected]
        exact connected
    | _ => exact apart rfl

namespace Entrance

variable {e : Entrance} {max : Nat} {phrase id : String} {channel : Channel} {ticket : Ticket}
  {moves : List Move} {more : List Command}

theorem stage_of_hears {m : Move} {r : Reply} (hears : r ∈ e.hears m) :
    m = .go ∧ ∃ id, e.seat.state.keeper.stage = .admission id ∧
      r = (e.seat.state.timeline.request (.connect id e.seat.state.channel)).1 := by
  cases m with
  | go =>
    rw [Entrance.hears, Gate.answers] at hears
    refine ⟨rfl, ?_⟩
    cases stage : e.seat.state.keeper.stage with
    | admission id =>
      rw [stage] at hears
      exact ⟨id, rfl, List.mem_singleton.mp hears⟩
    | _ => rw [stage] at hears; cases hears
  | _ => cases hears

theorem connects_of_admission (stage : e.seat.state.keeper.stage = .admission id)
    (queue : ∀ c ∈ e.scheduler.queue, c.concerns id = false) :
    ∀ c ∈ Broker.commands (e.scheduler.carried (e.dealings .go)),
      c.concerns id = false ∨ ∃ channel ticket, c = .connect id channel ticket := by
  have asks : e.asks .go = [.connect id e.seat.state.channel e.scheduler.tickets] := by
    rw [Entrance.asks, Gate.asks, stage]
    rfl
  have brought (p : Unit × Command) (mem : p ∈ e.scheduler.brought (e.dealings .go)) :
      p.2.concerns id = false ∨ ∃ channel ticket, p.2 = .connect id channel ticket := by
    obtain ⟨a, deals, s, brings⟩ := exists_of_mem_brought mem
    have others : ∀ a', Move.go = .elsewhere a' → a'.Spares id := by simp
    rcases spares_of_mem_dealings deals others with spares | ⟨id', channel, rfl, own⟩ |
      ⟨id', rfl, own⟩
    · exact .inl (spares.brings brings)
    · cases List.mem_singleton.mp (asks ▸ own)
      cases List.mem_singleton.mp brings
      exact .inr ⟨_, _, rfl⟩
    · cases List.mem_singleton.mp (asks ▸ own)
  exact (all_of_brought (fun c mem => .inl (queue c mem)) brought).2

/-- The broker has admitted the agent, whom it did not know. -/
structure Admits (id : String) (channel : Channel) (ticket : Ticket) (e : Entrance)
    (before : List Broker.Event) (admission : Broker.Event) (later : List Broker.Event) : Prop where
  stage : e.seat.state.keeper.stage = .admission id
  carried : e.scheduler.carried (e.dealings .go) = before ++ admission :: later
  command : admission.command? = some (.connect id channel ticket)
  fresh : (Run.last Broker.after e.broker before).isConnected id = false

theorem exists_admits (follows : Follows max phrase channel [] [] [] [] e)
    (ticketed : e.scheduler.Ticketed) (asked : e.asked moves = .connect id channel ticket :: more)
    (admitted : e.heard moves = [.admitted true]) :
    ∃ past rest before admission later, moves = past ++ .go :: rest ∧ e.asked past = [] ∧
      (e.after past).Admits id channel ticket before admission later := by
  have heard : .admitted true ∈ e.heard moves := admitted ▸ List.mem_cons_self
  obtain ⟨past, m, rest, split, hears⟩ := Run.exists_of_mem_log heard
  obtain ⟨rfl, id', stage, reply⟩ := stage_of_hears hears
  -- Where the answer is heard the gatekeeper stands before the admission, with nothing asked yet.
  have stands := (follows.run past).stands
  rw [keeper, Entrance.after, stage] at stands
  obtain ⟨silent, -, -⟩ := stands.asked_of_admission
  have asks : (e.after past).asks .go =
      [.connect id' (e.after past).seat.state.channel (e.after past).scheduler.tickets] := by
    rw [Entrance.asks, Gate.asks, Entrance.after, stage]
    rfl
  have first : e.asked moves = e.asked past ++ ((e.after past).asks .go ++
      ((e.after past).act .go).asked rest) := by
    rw [split, Entrance.asked, Run.log_append]
    rfl
  rw [silent, asks, asked] at first
  cases first
  obtain ⟨before, now, elapsed, awaited, later, carried, fresh⟩ :=
    Timeline.connected_of_admitted (ticketed_after ticketed past) reply.symm
  refine ⟨past, rest, before, .command now elapsed awaited _, later, split, silent, stage, ?_, rfl,
    fresh⟩
  rw [Entrance.dealings, Gate.dealings, Entrance.after, stage]
  exact carried

theorem absent_of_admitted (follows : Follows max phrase channel [] [] [] [] e)
    (alone : LeftAlone id e moves) (ticketed : e.scheduler.Ticketed)
    (asked : e.asked moves = .connect id channel ticket :: more)
    (admitted : e.heard moves = [.admitted true]) : e.broker.session? id = none := by
  obtain ⟨past, rest, before, admission, later, split, silent, admits⟩ :=
    exists_admits follows ticketed asked admitted
  have others (a : Action Unit) (mem : .elsewhere a ∈ past) : a.Spares id :=
    alone.others a (split ▸ List.mem_append_left _ mem)
  obtain ⟨session, queue⟩ := untouched ⟨alone.queue, others⟩ silent
  have mem (c : Command) (came : c ∈ Broker.commands before) : c ∈ Broker.commands
      ((e.after past).scheduler.carried ((e.after past).dealings .go)) := by
    rw [admits.carried, Broker.commands, List.filterMap_append]
    exact List.mem_append_left _ came
  have connects := connects_of_admission admits.stage queue
  rw [← session, Broker.session?_eq_none_iff]
  -- Only requests for its admission concerned the agent before, and those end no session.
  by_contra present
  have connected := (Bool.not_eq_false _).mp present
  have still := Broker.isConnected_last (fun c came => connects c (mem c came)) connected
  exact absurd still (Bool.eq_false_iff.mp admits.fresh)

/-- What a client and a scheduler can rely on. -/
structure Gatekeeping (max : Nat) (phrase : String) (channel : Channel) (e : Entrance)
    (moves : List Move) : Prop where
  /-- At most one admission is asked for, of an agent that has identified itself. Only an admission
  that has been granted is taken back. -/
  asked : e.asked moves = [] ∧ e.heard moves = [] ∨
    ∃ id ticket r, Identifies max phrase (e.given moves) id ∧ e.heard moves = [r] ∧
      (e.asked moves = [.connect id channel ticket] ∨
        r = .admitted true ∧ e.asked moves = [.connect id channel ticket, .disconnect id])
  /-- A gatekeeper that asks for nothing leaves the scheduler alone. -/
  silent : ∀ m, (∀ a, m ≠ .elsewhere a) → (e.after moves).asks m = [] →
    ∃ f, ((e.after moves).act m).scheduler = (e.after moves).scheduler.counting f
  told : Rebuff phrase (e.written moves) ∨
    e.heard moves = [.admitted true] ∧ e.written moves <+: welcome phrase
  accepted : ∀ r, (e.after moves).keeper.result? = some r →
    ((∃ id, r = .ok id) ↔ e.written moves = welcome phrase)
  welcomed : e.written moves = welcome phrase → ∃ id ticket,
    e.asked moves = [.connect id channel ticket] ∧
      (e.after (moves ++ [.go])).keeper.result? = some (.ok id)
  late : ∀ past rest, moves = past ++ .go :: rest → (e.after past).Overdue →
    ∀ id, (e.after moves).keeper.result? ≠ some (.ok id)
  withdrawn : ∀ cause, (e.after moves).keeper.result? = some (.error cause) →
    e.heard moves = [.admitted true] → ∃ id ticket past rest,
      e.asked moves = [.connect id channel ticket, .disconnect id] ∧
      moves = past ++ .go :: rest ∧
      ((e.after past).scheduler.isStopped ∨
        (e.after (past ++ [.go])).scheduler.queue =
          (e.after past).scheduler.queue ++ [.disconnect id])
  /-- The queue can always be worked off. -/
  drains : ∀ now, (e.after (moves ++
    ((e.after moves).scheduler.emptying now).map .elsewhere)).scheduler.queue = []
  /-- If nothing else concerns the agent, the broker comes to be as it would be if the agent had
  never come. -/
  undone : e.scheduler.Ticketed → e.broker.Coherent → ∀ id ticket,
    e.asked moves = [.connect id channel ticket, .disconnect id] → LeftAlone id e moves →
    (e.after moves).scheduler.phase = .running → (e.after moves).scheduler.queue = [] →
    let alone := Run.last Broker.after e.broker
      ((e.carried moves).filter fun event => !event.concerns id)
    (e.after moves).broker.sessions = alone.sessions ∧
      (e.after moves).broker.directory = alone.directory ∧
      (e.after moves).broker.ledger = alone.ledger

theorem scheduler_elsewhere (e : Entrance) (actions : List (Action Unit)) :
    (e.after (actions.map .elsewhere)).scheduler = e.scheduler.after actions := by
  induction actions generalizing e with
  | nil => rfl
  | cons a rest ih => exact ih (e.act (.elsewhere a))

theorem dealings_silent {m : Move} (own : ∀ a, m ≠ .elsewhere a) (silent : e.asks m = []) :
    e.dealings m = [] := by
  cases m with
  | elsewhere a => exact absurd rfl (own a)
  | go =>
    rw [Entrance.asks, Gate.asks] at silent
    rw [Entrance.dealings, Gate.dealings]
    cases stage : e.seat.state.keeper.stage with
    | admission | withdrawal => rw [stage] at silent; cases silent
    | _ => rfl
  | _ => rfl

theorem asks_silent {m : Move} (own : ∀ a, m ≠ .elsewhere a) (silent : e.asks m = []) :
    ∃ f, (e.act m).scheduler = e.scheduler.counting f := by
  have moved := e.scheduler_act m
  rwa [dealings_silent own silent] at moved

theorem Follows.undone (follows : Follows max phrase channel [] [] [] [] e)
    (alone : LeftAlone id e moves) (ticketed : e.scheduler.Ticketed) (coherent : e.broker.Coherent)
    (asked : e.asked moves = [.connect id channel ticket, .disconnect id])
    (running : (e.after moves).scheduler.phase = .running)
    (empty : (e.after moves).scheduler.queue = []) :
    let without := Run.last Broker.after e.broker
      ((e.carried moves).filter fun event => !event.concerns id)
    (e.after moves).broker.sessions = without.sessions ∧
      (e.after moves).broker.directory = without.directory ∧
      (e.after moves).broker.ledger = without.ledger := by
  have admitted := (follows.run moves).stands.admitted_of_disconnect asked
  have absent := absent_of_admitted follows alone ticketed asked admitted
  have passes : ∀ c ∈ e.asked moves, c.passes id := by
    rw [asked]
    simp [Command.passes]
  obtain ⟨without, -, leaving⟩ := passing follows alone coherent absent passes running
  have ends := (leaving (by simp [asked])).ends
  rw [empty] at ends
  exact without.eq_of_absent (ends.resolve_left (List.not_mem_nil))

/-- Whatever the client and others do, the gatekeeper keeps the gate. -/
theorem gatekeeping (maxFrame : Nat) (patience : Nanos) (phrase : String) (channel : Channel)
    (timeline : Timeline) (room room' : Nat) (moves : List Move) :
    Gatekeeping maxFrame phrase channel
      (start maxFrame patience phrase channel timeline room room') moves := by
  generalize begun : start maxFrame patience phrase channel timeline room room' = e
  have follows : Follows maxFrame phrase channel [] [] [] [] e :=
    begun ▸ follows_start maxFrame patience phrase channel timeline room room'
  have now := follows.run moves
  constructor
  case asked => exact now.stands.asked_once
  case silent => exact fun m => asks_silent
  case told => exact now.stands.told
  case accepted =>
    intro r result
    have stands := now.stands
    rw [Gatekeeper.result?_eq_some_iff.mp result] at stands
    constructor
    · rintro ⟨id, rfl⟩
      exact stands.accepted_id
    · intro whole
      obtain ⟨id, -, -, -, ended | verdict⟩ := stands.welcomed whole
      · exact ⟨id, GateStage.ended.inj ended⟩
      · cases verdict.1
  case welcomed =>
    intro whole
    obtain ⟨id, ticket, asked, -, stage⟩ := now.stands.welcomed whole
    refine ⟨id, ticket, asked, ?_⟩
    rw [Entrance.after, Run.last_concat]
    -- The last byte may be out before the gatekeeper has noticed it.
    rcases stage with ended | ⟨stage, out⟩
    · exact Gatekeeper.result?_eq_some_iff.mpr (ended_go ended)
    · exact result?_go stage (now.max_eq.symm ▸ out)
  case late =>
    intro past rest split overdue id result
    have lost := lost_after (lost_of_overdue overdue) rest
    have whole : (e.after past).go.after rest = e.after moves := by
      rw [split, Entrance.after, Entrance.after, Entrance.after, Run.last_append]
      rfl
    rw [whole, Gatekeeper.result?_eq_some_iff.mp result] at lost
    cases lost
  case withdrawn =>
    intro cause result admitted
    have stands := now.stands
    rw [Gatekeeper.result?_eq_some_iff.mp result] at stands
    obtain ⟨id, ticket, asked⟩ := stands.withdrawn_of_error admitted
    have mem : Command.disconnect id ∈ [Command.connect id channel ticket, .disconnect id] :=
      List.mem_cons_of_mem _ List.mem_cons_self
    obtain ⟨past, rest, split, queued⟩ := queue_of_disconnect (asked ▸ mem)
    exact ⟨id, ticket, past, rest, asked, split, queued⟩
  case drains =>
    intro now
    rw [Entrance.after, Run.last_append]
    refine (congrArg Scheduler.queue (scheduler_elsewhere _ _)).trans ?_
    exact queue_emptying _ now
  case undone =>
    intro ticketed coherent id ticket asked alone running empty
    exact follows.undone alone ticketed coherent asked running empty

/-- An agent that answers as it should, and then reads no more before it is told so. -/
def turnsAway (id phrase : String) : List Move :=
  .send (framed (Wire.encode (Introduction.mk id)) ++
      framed (Wire.encode (Answer.mk (answerTo phrase)))) ::
    List.replicate 9 .go ++ [.shut, .go, .go, .elsewhere (.work 0 0)]

theorem gatekeeping_turnsAway :
    let e := start 200 1000 "ab" 0 (.start default) 1000 1000
    let moves := turnsAway "seller" "ab"
    e.scheduler.Ticketed ∧ e.broker.Coherent ∧ LeftAlone "seller" e moves ∧
      (e.after moves).scheduler.phase = .running ∧ (e.after moves).scheduler.queue = [] ∧
      ∃ ticket, e.asked moves = [.connect "seller" 0 ticket, .disconnect "seller"] ∧
        let alone := Run.last Broker.after e.broker
          ((e.carried moves).filter fun event => !event.concerns "seller")
        (e.after moves).broker.sessions = alone.sessions ∧
          (e.after moves).broker.directory = alone.directory ∧
          (e.after moves).broker.ledger = alone.ledger := by
  intro e moves
  have kept := gatekeeping 200 1000 "ab" 0 (.start default) 1000 1000 moves
  have ticketed : e.scheduler.Ticketed := ticketed_start _
  have coherent : e.broker.Coherent := Broker.coherent_start _
  have alone : LeftAlone "seller" e moves := by
    refine ⟨nofun, fun a mem => ?_⟩
    simp only [moves, turnsAway, List.mem_cons, List.mem_append, List.mem_replicate] at mem
    simp at mem
    rw [mem]
    trivial
  have running : (e.after moves).scheduler.phase = .running := by decide +kernel
  have empty : (e.after moves).scheduler.queue = [] :=
    List.eq_nil_of_length_eq_zero (by decide +kernel)
  have both : (e.asked moves).length = 2 := by decide +kernel
  have passes : (e.asked moves).all (·.passes "seller") := by decide +kernel
  have follows := follows_start 200 1000 "ab" 0 (.start default) 1000 1000
  obtain ⟨ticket, asked⟩ := (follows.run moves).stands.asked_of_length both passes
  exact ⟨ticketed, coherent, alone, running, empty, ticket, asked,
    kept.undone ticketed coherent _ ticket asked alone running empty⟩

end Entrance

end AgentBroker
