import AgentBroker.Proofs.Connection.Streams
import AgentBroker.Proofs.Handshake.Gatekeeping

/-!
# Taking an admission back

An admission is taken back by the id of its agent. Meanwhile the agent may have lost the session
that it was admitted with and have been admitted again, on another connection. Then the session of
that connection ends.
-/

namespace AgentBroker

open AgentBroker.Frame Scheduler

theorem Command.eq_disconnect {id : String} {c : Command} (passes : c.passes id)
    (silent : c.ticket? = none) : c = .disconnect id := by
  cases c with
  | disconnect other => exact congrArg _ (eq_of_beq passes)
  | connect => cases silent
  | _ => cases passes

theorem Scheduler.broker_step_disconnect {s : Scheduler} {id : String}
    (running : s.phase = .running) (first : s.queue.head? = some (.disconnect id))
    (now elapsed : Nanos) : (s.step now elapsed).broker = (s.broker.disconnect id).2 := by
  obtain ⟨rest, queue⟩ := List.head?_eq_some_iff.mp first
  rw [step, running, queue]
  rfl

namespace Broker

variable {b b' : Broker} {agent : String} {j : Channel}

/-- `b'` is `b` after the session of an agent has ended, with what belonged to it. -/
structure Removes (agent : String) (b b' : Broker) : Prop where
  gone : b'.session? agent = none
  sessions : ∀ other, other ≠ agent → b'.session? other = b.session? other
  entries : ∀ other, other ≠ agent → b.directory.SameFor b'.directory other
  negotiations : ∀ id n, b.ledger.get? id = some n → n.involves agent = false →
    b'.ledger.get? id = some n
  mailboxes : b'.mailboxes = b.mailboxes

theorem removes_drop (b : Broker) (agent : String) : Removes agent b (b.drop agent) where
  gone := by rw [session?_drop, if_pos rfl]
  sessions other apart := by rw [session?_drop, if_neg apart]
  entries other apart := b.directory.removeAgent_sameFor apart
  negotiations id n found apart := by
    rw [ledger_drop, Option.filter_eq_some_iff]
    exact ⟨found, by rw [apart]; rfl⟩
  mailboxes := rfl

theorem removes_disconnect (b : Broker) (agent : String) :
    Removes agent b (b.disconnect agent).2 := by
  rw [disconnect]
  split
  · exact removes_drop b agent
  next absent =>
    exact ⟨session?_eq_none_iff.mpr (Bool.eq_false_iff.mpr absent), fun _ _ => rfl,
      fun _ _ => ⟨rfl, rfl⟩, fun _ _ found _ => found, rfl⟩

theorem session?_last {events : List Event}
    (session : (Run.last Broker.after b events).session? agent = some j) :
    b.session? agent = some j ∨ ∃ ticket, .connect agent j ticket ∈ commands events := by
  induction events generalizing b with
  | nil => exact .inl session
  | cons e rest ih =>
    rcases ih session with here | ⟨ticket, later⟩
    · rcases b.session?_after e agent with kept | gone | ⟨_, _, _, channel, ticket, rfl, new⟩
      · exact .inl (kept.symm.trans here)
      · rw [gone] at here
        cases here
      · cases new.symm.trans here
        exact .inr ⟨ticket, List.mem_cons_self⟩
    · exact .inr ⟨ticket, (List.sublist_cons_self e rest).filterMap _ |>.subset later⟩

end Broker

namespace Entrance

variable {e : Entrance} {id : String} {channel j : Channel} {ticket : Ticket} {moves : List Move}
  {max : Nat} {phrase : String} {more : List Command}

theorem session?_act {m : Move} (session : (e.act m).broker.session? id = some j) :
    (Run.last Broker.after e.broker (e.scheduler.carried (e.dealings m))).session? id = some j := by
  obtain ⟨f, moved⟩ := e.broker_act m
  rwa [moved] at session

theorem session?_moves (session : (e.after moves).broker.session? id = some j) :
    e.broker.session? id = some j ∨
      ∃ ticket, .connect id j ticket ∈ Broker.commands (e.carried moves) := by
  induction moves generalizing e with
  | nil => exact .inl session
  | cons m rest ih =>
    have split : Broker.commands (e.carried (m :: rest)) =
        Broker.commands (e.scheduler.carried (e.dealings m)) ++
          Broker.commands ((e.act m).carried rest) := List.filterMap_append
    rw [split]
    rcases ih session with here | ⟨ticket, later⟩
    · rcases Broker.session?_last (session?_act here) with before | ⟨ticket, now⟩
      · exact .inl before
      · exact .inr ⟨ticket, List.mem_append_left _ now⟩
    · exact .inr ⟨ticket, List.mem_append_right _ later⟩

theorem Admits.eq_channel {before later : List Broker.Event} {admission : Broker.Event}
    (admits : e.Admits id channel ticket before admission later)
    (session : ((Run.last Broker.after e.broker before).after admission).session? id = some j) :
    j = channel := by
  rcases Broker.session?_after _ admission id with kept | gone | ⟨_, _, _, _, _, event, new⟩
  · rw [kept, Broker.session?_eq_none_iff.mpr admits.fresh] at session
    cases session
  · rw [gone] at session
    cases session
  · have command := admits.command
    rw [event] at command
    cases command
    exact Option.some.inj (session.symm.trans new)

theorem session?_since (follows : Follows max phrase channel [] [] [] [] e)
    (ticketed : e.scheduler.Ticketed) (asked : e.asked moves = .connect id channel ticket :: more)
    (admitted : e.heard moves = [.admitted true]) :
    ∃ before admission since, e.carried moves = before ++ admission :: since ∧
      admission.command? = some (.connect id channel ticket) ∧
      ∀ j, (e.after moves).broker.session? id = some j →
        j = channel ∨ ∃ ticket, .connect id j ticket ∈ Broker.commands since := by
  obtain ⟨past, rest, before, admission, later, split, -, admits⟩ :=
    exists_admits follows ticketed asked admitted
  have whole : e.carried moves = e.carried past ++
      ((e.after past).scheduler.carried ((e.after past).dealings .go) ++
        ((e.after past).act .go).carried rest) := by
    rw [split, Entrance.carried, Run.log_append]
    rfl
  have last : e.after moves = ((e.after past).act .go).after rest := by
    rw [split, Entrance.after, Run.last_append]
    rfl
  refine ⟨e.carried past ++ before, admission, later ++ ((e.after past).act .go).carried rest, ?_,
    admits.command, fun j session => ?_⟩
  · rw [whole, admits.carried]
    simp only [List.append_assoc, List.cons_append]
  rw [Broker.commands, List.filterMap_append]
  rw [last] at session
  -- The session is older than the last moves, or they have brought it; and so once more for what the
  -- worker did behind the admission.
  rcases session?_moves session with here | ⟨ticket, since⟩
  · have behind := session?_act here
    rw [admits.carried, Run.last_append, Run.last_cons] at behind
    rcases Broker.session?_last behind with own | ⟨ticket, since⟩
    · exact .inl (admits.eq_channel own)
    · exact .inr ⟨ticket, List.mem_append_left _ since⟩
  · exact .inr ⟨ticket, List.mem_append_right _ since⟩

theorem broker_disconnects (running : e.scheduler.phase = .running)
    (first : e.scheduler.queue.head? = some (.disconnect id)) (now elapsed : Nanos) :
    (e.act (.elsewhere (.work now elapsed))).broker = (e.broker.disconnect id).2 :=
  Scheduler.broker_step_disconnect running first now elapsed

/-- Taking an admission back ends at most one session. It is that of the agent, on the connection
that was admitted or on one that has been admitted since, and nothing of others is touched. -/
structure Withdrawing (id : String) (channel : Channel) (ticket : Ticket) (e : Entrance)
    (moves : List Move) (b' : Broker) : Prop where
  queued : ∃ past rest, moves = past ++ .go :: rest ∧
    ((e.after past).scheduler.isStopped ∨
      (e.after (past ++ [.go])).scheduler.queue =
        (e.after past).scheduler.queue ++ [.disconnect id])
  removes : (e.after moves).broker.Removes id b'
  idle : (e.after moves).broker.session? id = none → b' = (e.after moves).broker
  since : ∃ before admission since, e.carried moves = before ++ admission :: since ∧
    admission.command? = some (.connect id channel ticket) ∧
    ∀ j, (e.after moves).broker.session? id = some j →
      j = channel ∨ ∃ ticket, .connect id j ticket ∈ Broker.commands since

theorem withdrawing (maxFrame : Nat) (patience : Nanos) (phrase : String) (channel : Channel)
    {timeline : Timeline} (ticketed : timeline.scheduler.Ticketed) (room room' : Nat)
    {moves : List Move} {id : String} {ticket : Ticket} :
    let e := start maxFrame patience phrase channel timeline room room'
    e.asked moves = [.connect id channel ticket, .disconnect id] →
    (e.after moves).scheduler.phase = .running →
    (e.after moves).scheduler.queue.head? = some (.disconnect id) → ∀ now elapsed,
    Withdrawing id channel ticket e moves
      (e.after (moves ++ [.elsewhere (.work now elapsed)])).broker := by
  intro e asked running first now elapsed
  have follows : Follows maxFrame phrase channel [] [] [] [] e :=
    follows_start maxFrame patience phrase channel timeline room room'
  have admitted := (follows.run moves).stands.admitted_of_disconnect asked
  have next : (e.after (moves ++ [.elsewhere (.work now elapsed)])).broker =
      ((e.after moves).broker.disconnect id).2 := by
    rw [Entrance.after, Run.last_concat]
    exact broker_disconnects running first now elapsed
  rw [next]
  exact {
    queued := queue_of_disconnect (by simp [asked])
    removes := (e.after moves).broker.removes_disconnect id
    idle := fun absent => by
      rw [Broker.disconnect, if_neg (Bool.eq_false_iff.mp (Broker.session?_eq_none_iff.mp absent))]
    since := session?_since follows ticketed asked admitted }

/-- An agent answers as it should. It loses the session that it is given, is admitted again on
another connection, and registers a service there, all before the first connection fails. -/
def comesAgain (id phrase : String) (channel : Channel) : List Move :=
  .send (framed (Wire.encode (Introduction.mk id)) ++
      framed (Wire.encode (Answer.mk (answerTo phrase)))) ::
    List.replicate 9 .go ++
      [.elsewhere (.post () (Gate.dismissal id)), .elsewhere (.work 0 0),
        .elsewhere (.request () (Gate.admission id channel)), .elsewhere (.work 0 0),
        .elsewhere (.post () ⟨.envelope id lateService, rfl⟩), .elsewhere (.work 0 0),
        .shut, .go, .go]

/-- Then taking the first admission back ends the second session. -/
theorem withdrawal_ends_readmission :
    let e := start 200 1000 "ab" 1 (.start default) 1000 1000
    let moves := comesAgain "A" "ab" 2
    (e.written moves = framed (challengeBody "ab") ∧ (e.asked moves).length = 2 ∧
      (e.asked moves).all (·.passes "A")) ∧
    (e.after moves).broker.session? "A" = some 2 ∧ (e.after moves).broker.stats.services = 1 ∧
      let b' := (e.after (moves ++ [.elsewhere (.work 0 0)])).broker
      b'.session? "A" = none ∧ b'.stats.services = 0 := by
  decide +kernel

theorem withdrawing_comesAgain :
    let e := start 200 1000 "ab" 1 (.start default) 1000 1000
    let moves := comesAgain "A" "ab" 2
    (e.after moves).scheduler.phase = .running ∧
    (e.after moves).scheduler.queue.head? = some (.disconnect "A") ∧
      ∃ ticket, e.asked moves = [.connect "A" 1 ticket, .disconnect "A"] ∧
        Withdrawing "A" 1 ticket e moves
          (e.after (moves ++ [.elsewhere (.work 0 0)])).broker := by
  intro e moves
  have running : (e.after moves).scheduler.phase = .running := by decide +kernel
  have first : (e.after moves).scheduler.queue.head? = some (.disconnect "A") := by
    have waits : (e.after moves).scheduler.queue.head?.any
        (fun c => c.passes "A" && c.ticket?.isNone) := by decide +kernel
    obtain ⟨c, head, own⟩ := (Option.any_eq_true _ _).mp waits
    rw [Bool.and_eq_true, Option.isNone_iff_eq_none] at own
    rw [head, Command.eq_disconnect own.1 own.2]
  have both : (e.asked moves).length = 2 := by decide +kernel
  have passes : (e.asked moves).all (·.passes "A") := by decide +kernel
  have follows := follows_start 200 1000 "ab" 1 (.start default) 1000 1000
  obtain ⟨ticket, asked⟩ := (follows.run moves).stands.asked_of_length both passes
  exact ⟨running, first, ticket, asked,
    withdrawing 200 1000 "ab" 1 (ticketed_start _) 1000 1000 asked running first 0 0⟩

end Entrance

end AgentBroker
