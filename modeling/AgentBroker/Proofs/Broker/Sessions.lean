import AgentBroker.Proofs.Broker.Apart
import AgentBroker.Proofs.Broker.Delivery
import AgentBroker.Proofs.Connection.Streams
import AgentBroker.Proofs.Scheduler.InOrder

/-!
# Sessions and their mailboxes

A session is known by the mailbox with which its agent was admitted. A connection that closes asks
for the end of its own session by that mailbox, and the request may come too late: the session may
have ended, and the agent may have been admitted again. An admission that nobody awaits any more is
undone at once and leaves no trace.
-/

namespace AgentBroker

namespace Broker

variable {b : Broker} {id agent : String} {j channel : Channel} {events : List Event}
  {notifications : NotificationSettings}

theorem admits_of_session?_after {e : Event} (before : b.session? id ≠ some j)
    (behind : (b.after e).session? id = some j) :
    ∃ now elapsed ticket, e = .command now elapsed true (.connect id j ticket) ∧
      b.isConnected id = false := by
  rcases b.session?_after e id with kept | gone | ⟨now, elapsed, awaited, _, ticket, rfl, new⟩
  · exact absurd (kept.symm.trans behind) before
  · cases gone.symm.trans behind
  · cases new.symm.trans behind
    by_cases connected : b.isConnected id
    · rw [after, apply, connect, if_pos connected] at behind
      exact absurd behind before
    · cases awaited with
      | true => exact ⟨now, elapsed, ticket, rfl, Bool.eq_false_iff.mpr connected⟩
      | false =>
        rw [after, apply, connect_eq connected] at behind
        cases (session?_disconnect _ id).symm.trans behind

/-- Some event has admitted an agent with a mailbox, and the session has lasted since. -/
structure Lasts (id : String) (j : Channel) (ticket : Ticket) (b : Broker) (events : List Event) :
    Prop where
  since : ∃ before now elapsed later,
    events = before ++ .command now elapsed true (.connect id j ticket) :: later ∧
    (Run.last after b before).isConnected id = false ∧
    ∀ xs ys, later = xs ++ ys →
      (Run.last after b (before ++ .command now elapsed true (.connect id j ticket) :: xs)).session?
        id = some j

theorem exists_lasts {events : List Event} (fresh : b.session? id ≠ some j)
    (session : (Run.last after b events).session? id = some j) :
    ∃ ticket, Lasts id j ticket b events := by
  induction events using List.reverseRecOn with
  | nil => exact absurd session fresh
  | append_singleton events e ih =>
    have whole := session
    rw [Run.last_concat] at session
    by_cases still : (Run.last after b events).session? id = some j
    · obtain ⟨ticket, ⟨before, now, elapsed, later, rfl, absent, lasts⟩⟩ := ih still
      refine ⟨ticket, ⟨before, now, elapsed, later ++ [e], by simp, absent, fun xs ys split => ?_⟩⟩
      rcases List.eq_nil_or_concat ys with rfl | ⟨ys, last, rfl⟩
      · rw [List.append_nil] at split
        rw [← split]
        simpa using whole
      · rw [List.concat_eq_append, ← List.append_assoc] at split
        exact lasts xs ys (List.append_inj_left' split rfl)
    · obtain ⟨now, elapsed, ticket, rfl, absent⟩ := admits_of_session?_after still session
      refine ⟨ticket, ⟨events, now, elapsed, [], rfl, absent, fun xs ys split => ?_⟩⟩
      obtain ⟨rfl, rfl⟩ := List.nil_eq_append_iff.mp split
      exact whole

theorem Lasts.session {ticket : Ticket} (h : Lasts id j ticket b events) :
    (Run.last after b events).session? id = some j := by
  obtain ⟨before, now, elapsed, later, rfl, -, lasts⟩ := h.since
  exact lasts later [] (List.append_nil later).symm

/-- The session of an agent is the one that was admitted with its mailbox. -/
theorem session?_iff_lasts :
    (replay notifications events).session? id = some j ↔
      ∃ ticket, Lasts id j ticket (start notifications) events := by
  have fresh : (start notifications).session? id ≠ some j := by simp [session?, start]
  constructor
  · intro session
    exact exists_lasts fresh session
  · rintro ⟨ticket, lasts⟩
    exact lasts.session

theorem session?_ne_last (unbound : b.session? agent ≠ some channel)
    (elsewhere : ∀ e ∈ events, e.admission? ≠ some (agent, channel)) :
    (Run.last after b events).session? agent ≠ some channel := by
  intro session
  obtain ⟨ticket, ⟨before, now, elapsed, later, rfl, -⟩⟩ := exists_lasts unbound session
  exact elsewhere (.command now elapsed true (.connect agent channel ticket)) (by simp) rfl

theorem admission?_later {past later : List Event}
    (fresh : (((past ++ later).filterMap Event.admission?).map (·.2)).Nodup)
    (came : (agent, channel) ∈ past.filterMap Event.admission?) :
    ∀ e ∈ later, e.admission? ≠ some (agent, channel) := by
  intro e mem
  obtain ⟨connect, past_mem, brings⟩ := List.mem_filterMap.mp came
  obtain ⟨before, rest, rfl⟩ := List.append_of_mem past_mem
  rw [List.append_assoc, List.cons_append] at fresh
  have behind : e ∈ before ++ (rest ++ later) := by simp [mem]
  exact admission?_elsewhere brings fresh behind agent

/-- How an admission that nobody awaits leaves the broker: all that tells of it are the counts. -/
structure Untouched (agent : String) (b b' : Broker) : Prop where
  sessions : b'.sessions = b.sessions
  directory : b'.directory = b.directory
  ledger : b'.ledger = b.ledger
  notifications : b'.notifications = b.notifications
  mailboxes : b'.mailboxes = b.mailboxes
  metrics : b'.metrics =
    if b.isConnected agent then b.metrics.sessionRejected
    else b.metrics.sessionAdmitted.sessionClosed

theorem Coherent.untouched (h : b.Coherent) (now elapsed : Nanos) (agent : String)
    (channel : Channel) (ticket : Ticket) :
    Untouched agent b (b.after (.command now elapsed false (.connect agent channel ticket))) := by
  by_cases connected : b.isConnected agent
  · have rejected : b.after (.command now elapsed false (.connect agent channel ticket)) =
        b.count .sessionRejected := by
      rw [Broker.after, apply, connect, if_pos connected]
      rfl
    rw [rejected]
    exact ⟨rfl, rfl, rfl, rfl, rfl, (if_pos connected).symm⟩
  · have admitted : (b.withSession agent channel).isConnected agent :=
      isConnected_iff.mpr ⟨channel, by rw [session?_withSession, if_pos rfl]⟩
    have undone : b.after (.command now elapsed false (.connect agent channel ticket)) =
        (b.withSession agent channel).drop agent := by
      rw [Broker.after, apply, connect_eq connected]
      exact congrArg Prod.snd (if_pos admitted)
    have absent : b.session? agent = none :=
      session?_eq_none_iff.mpr (Bool.eq_false_iff.mpr connected)
    have gone : ((b.withSession agent channel).drop agent).session? agent = none := by
      rw [session?_drop, if_pos rfl]
    have without := (Without.refl h absent).after_own
      (e := .command now elapsed false (.connect agent channel ticket)) (beq_self_eq_true agent)
    rw [undone] at without ⊢
    obtain ⟨sessions, directory, ledger⟩ := without.eq_of_absent gone
    exact ⟨sessions, directory, ledger, rfl, rfl, (if_neg connected).symm⟩

theorem disconnectSession_eq (b : Broker) (agent : String) (channel : Channel) :
    (b.disconnectSession agent channel).2 =
      if b.session? agent = some channel then (b.disconnect agent).2 else b := by
  rw [disconnectSession, disconnect]
  by_cases session : b.session? agent = some channel
  · rw [if_pos session, if_pos session, if_pos (isConnected_iff.mpr ⟨channel, session⟩)]
  · rw [if_neg session, if_neg session]

/-- How a closing connection leaves the broker behind `events`. -/
structure Closes (notifications : NotificationSettings) (agent : String) (channel : Channel)
    (events : List Event) (b' : Broker) : Prop where
  /-- When nobody can write to the mailbox any more, no session is bound to it. -/
  silent : (replay notifications events).canWrite channel = false →
    ∀ other, (replay notifications events).session? other ≠ some channel
  /-- So it makes no difference that in this case no session is looked for. -/
  alike : b' = ((replay notifications events).disconnectSession agent channel).2
  own : ∀ ticket, Lasts agent channel ticket (start notifications) events →
    b' = ((replay notifications events).disconnect agent).2
  stale : (∀ ticket, ¬ Lasts agent channel ticket (start notifications) events) →
    b' = replay notifications events
  others : ∀ other j, (other, j) ≠ (agent, channel) →
    (replay notifications events).session? other = some j → b'.session? other = some j
  ended : b'.session? agent ≠ some channel

theorem closes_after (notifications : NotificationSettings) (events : List Event)
    (now elapsed : Nanos) (awaited : Bool) (agent : String) (channel : Channel) :
    Closes notifications agent channel events
      ((replay notifications events).after
        (.command now elapsed awaited (.disconnectSession agent channel))) := by
  have alike : ((replay notifications events).apply now elapsed awaited
      (.disconnectSession agent channel)).2 =
      ((replay notifications events).disconnectSession agent channel).2 :=
    apply_disconnectSession _ now elapsed awaited channel
  have eq := alike.trans (disconnectSession_eq _ agent channel)
  rw [after]
  refine ⟨fun silent other session => ?_, alike, fun ticket lasts => ?_, fun never => ?_, ?_, ?_⟩
  · rw [canWrite_of_session? session] at silent
    cases silent
  · rw [eq, if_pos (session?_iff_lasts.mpr ⟨ticket, lasts⟩)]
  · rw [eq, if_neg (mt session?_iff_lasts.mp (not_exists.mpr never))]
  · intro other j apart session
    rw [eq]
    split
    next bound =>
      have other_ne : other ≠ agent := by
        rintro rfl
        cases session.symm.trans bound
        exact apart rfl
      rw [disconnect, if_pos (isConnected_iff.mpr ⟨channel, bound⟩), session?_drop,
        if_neg other_ne, session]
    · exact session
  · rw [eq]
    split
    · rw [session?_disconnect]
      intro bound
      cases bound
    next unbound => exact unbound

end Broker

namespace Scheduler

variable {π : Type} {agent : String} {channel : Channel} {rest : List Command}

theorem carries_next {s : Scheduler} {c : Command} (running : s.phase = .running)
    (next : s.queue = c :: rest) (goes : ¬ c.isStop) (now elapsed : Nanos) :
    s.carries (.work now elapsed : Action π) = [.command now elapsed (s.awaits c) c] := by
  rw [carries, if_pos running, next, List.take_succ_cons, List.take_zero,
    Command.untilStop_cons goes]
  rfl

theorem carried_next {s : Scheduler} {actions : List (Action π)} {c : Command}
    (running : (s.after actions).phase = .running) (next : (s.after actions).queue = c :: rest)
    (goes : ¬ c.isStop) (now elapsed : Nanos) (more : List (Action π)) :
    s.carried (actions ++ .work now elapsed :: more) =
      s.carried actions ++ .command now elapsed ((s.after actions).awaits c) c ::
        ((s.after actions).act (.work now elapsed : Action π)).carried more := by
  have works : (s.after actions).carries (.work now elapsed : Action π) = _ :=
    carries_next running next goes now elapsed
  have split : s.carried (actions ++ .work now elapsed :: more) =
      s.carried actions ++ ((s.after actions).carries (.work now elapsed : Action π) ++
        ((s.after actions).act (.work now elapsed : Action π)).carried more) :=
    Run.log_append _ _ _
  rw [split, works]
  rfl

/-- The command with which a connection closes ends the session that was admitted with its mailbox,
as if the agent were disconnected, and without such a session it does nothing. Once the admission of
the connection and this command have been carried out, the agent has no session with the mailbox any
more, as long as every admission brings a mailbox of its own. -/
theorem closing_exact (notifications : NotificationSettings) (actions : List (Action π))
    (running : ((start notifications).after actions).phase = .running)
    (next : ((start notifications).after actions).queue = .disconnectSession agent channel :: rest)
    (now elapsed : Nanos) :
    Broker.Closes notifications agent channel ((start notifications).carried actions)
      (((start notifications).after actions).step now elapsed).broker ∧
    ∀ more : List (Action π),
      ((((start notifications).carried (actions ++ .work now elapsed :: more)).filterMap
        Broker.Event.admission?).map (·.2)).Nodup →
      (agent, channel) ∈
        ((start notifications).carried actions).filterMap Broker.Event.admission? →
      ((start notifications).after (actions ++ .work now elapsed :: more)).broker.session? agent ≠
        some channel := by
  have closes := Broker.closes_after notifications ((start notifications).carried actions) now
    elapsed (((start notifications).after actions).awaits (.disconnectSession agent channel)) agent
    channel
  have broker (more : List (Action π)) :=
    broker_after (start notifications) (actions ++ .work now elapsed :: more)
  simp only [carried_next running next Bool.false_ne_true, Run.last_append, Run.last_cons] at broker
  refine ⟨?_, fun more fresh came => ?_⟩
  · have step := broker []
    rw [after_append] at step
    exact step ▸ closes
  · rw [broker]
    refine Broker.session?_ne_last closes.ended fun e mem => ?_
    rw [carried_next running next Bool.false_ne_true] at fresh
    exact Broker.admission?_later fresh came e (List.mem_cons_of_mem _ mem)

/-- A connection that closes too late finds its agent admitted again. -/
theorem closing_exact_stale :
    let actions : List (Action Unit) :=
      [.request () ⟨.connect "A" 0, fun _ => rfl⟩, .post () ⟨.disconnect "A", rfl⟩,
        .request () ⟨.connect "A" 1, fun _ => rfl⟩, .post () ⟨.disconnectSession "A" 0, rfl⟩,
        .work 0 0, .work 0 0, .work 0 0]
    ((start default).after actions).queue = [.disconnectSession "A" 0] ∧
      (((start default).after actions).step 0 0).broker.session? "A" = some 1 := by
  intro actions
  have next : ((start default).after actions).queue = [.disconnectSession "A" 0] := rfl
  have closes := (closing_exact default actions (by decide +kernel) next 0 0).1
  refine ⟨next, closes.others "A" 1 (by decide) ?_⟩
  decide +kernel

/-- An admission whose answer has been given up before the worker comes to it leaves all sessions,
the directory and all negotiations as they were, and nobody is answered, whether or not the agent is
connected. -/
theorem givenUp_untouched (notifications : NotificationSettings) (actions : List (Action π))
    {ticket : Ticket} (running : ((start notifications).after actions).phase = .running)
    (next : ((start notifications).after actions).queue = .connect agent channel ticket :: rest)
    (givenUp : .abandon ticket ∈ actions) (now elapsed : Nanos) :
    let s := (start notifications).after actions
    Broker.Untouched agent s.broker (s.step now elapsed).broker ∧
      (s.step now elapsed).queue = rest ∧ (s.step now elapsed).replies = s.replies := by
  intro s
  have unawaited : s.awaits (.connect agent channel ticket) = false := by
    have abandoned := (abandoned_after_iff (start notifications) actions ticket).mpr (.inr givenUp)
    exact congrArg Bool.not (Std.ExtTreeSet.contains_iff_mem.mpr abandoned)
  have coherent : s.broker.Coherent := by
    rw [broker_after]
    exact Broker.coherent_replay notifications _
  have silent :
      s.broker.replies (.command now elapsed false (.connect agent channel ticket)) = [] :=
    List.flatMap_eq_nil_iff.mpr fun _ _ => rfl
  rw [step_cons running next nofun now elapsed, unawaited, silent, List.append_nil]
  exact ⟨coherent.untouched now elapsed agent channel ticket, rfl, rfl⟩

/-- An agent that has left a negotiation gives up its second admission. -/
theorem givenUp_untouched_second :
    let actions : List (Action Unit) :=
      [.request () ⟨.connect "A" 0, fun _ => rfl⟩, .request () ⟨.connect "B" 1, fun _ => rfl⟩,
        .post () ⟨.envelope "A" (.negotiation "sale" "B" 1 0 (.call (.text "?"))), rfl⟩,
        .post () ⟨.disconnect "B", rfl⟩, .request () ⟨.connect "B" 2, fun _ => rfl⟩,
        .abandon 2, .work 0 0, .work 0 0, .work 0 0, .work 0 0]
    let s := (start default).after actions
    s.queue = [.connect "B" 2 2] ∧ s.broker.isConnected "B" = false ∧
      Broker.Untouched "B" s.broker (s.step 0 0).broker ∧
      (s.step 0 0).broker.ledger.isRetired "sale" := by
  intro actions s
  have next : s.queue = [.connect "B" 2 2] := rfl
  have untouched := (givenUp_untouched default actions (by decide +kernel) next
    (by simp [actions]) 0 0).1
  refine ⟨next, by decide +kernel, untouched, ?_⟩
  rw [untouched.ledger]
  decide +kernel

end Scheduler

end AgentBroker
