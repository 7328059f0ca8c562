import AgentBroker.Proofs.Broker.History

/-!
# Streams of connections

The commands of all connections come to one queue. A command to leave names the mailbox of its
connection, but an envelope names only its agent: when the broker has dropped the session of a
connection and admitted the agent again, what the old connection still sends counts for the new one.
-/

namespace AgentBroker

/-- What a connection brings to the queue. -/
inductive Part where
  /-- It asks for the admission of its agent, with its own mailbox. -/
  | admission (ticket : Ticket)
  | envelope (e : Envelope)
  /-- It leaves the session that it was admitted with. -/
  | leave

namespace Part

def command (agent : String) (channel : Channel) : Part → Command
  | .admission ticket => .connect agent channel ticket
  | .envelope e => .envelope agent e
  | .leave => .disconnectSession agent channel

end Part

def Command.isOfConnection : Command → Bool
  | .connect .. | .envelope .. | .disconnectSession .. => true
  | _ => false

def Broker.Event.isElsewhere : Broker.Event → Bool
  | .command _ _ _ c => !c.isOfConnection
  | _ => true

/-- Something that the broker meets. A connection is known by its mailbox. -/
inductive Encounter where
  | connection (k : Channel) (now elapsed : Nanos) (awaited : Bool) (part : Part)
  | elsewhere (e : { e : Broker.Event // e.isElsewhere })

namespace Encounter

variable (agentOf : Channel → String)

def event : Encounter → Broker.Event
  | .connection k now elapsed awaited part =>
    .command now elapsed awaited (part.command (agentOf k) k)
  | .elsewhere e => e

def part? (k : Channel) : Encounter → Option Part
  | .connection k' _ _ _ part => if k' = k then some part else none
  | .elsewhere _ => none

def admission? : Encounter → Option Channel
  | .connection k _ _ _ (.admission _) => some k
  | _ => none

end Encounter

def partsOf (k : Channel) (moves : List Encounter) : List Part :=
  moves.filterMap (Encounter.part? k)

def admissions (moves : List Encounter) : List Channel := moves.filterMap Encounter.admission?

def Broker.meets (agentOf : Channel → String) (b : Broker) (moves : List Encounter) : Broker :=
  Run.last Broker.after b (moves.map (Encounter.event agentOf))

/-- The streams of any number of connections, in any interleaving, with anything from elsewhere
between them. -/
structure Interleaved (agentOf : Channel → String) (notifications : NotificationSettings)
    (moves : List Encounter) : Prop where
  /-- A connection asks for its admission, sends envelopes, and leaves. -/
  streams : ∀ k, ∃ ticket, ∃ es : List Envelope,
    partsOf k moves <+: .admission ticket :: es.map Part.envelope ++ [.leave]
  /-- A connection that is not admitted brings nothing more. -/
  admitted : ∀ {past : List Encounter} {k : Channel} {now elapsed : Nanos} {awaited : Bool}
    {ticket : Ticket} {rest : List Encounter},
    moves = past ++ .connection k now elapsed awaited (.admission ticket) :: rest →
    partsOf k rest ≠ [] →
    awaited ∧ ¬ ((Broker.start notifications).meets agentOf past).isConnected (agentOf k)

variable {agentOf : Channel → String} {notifications : NotificationSettings}

namespace Broker

theorem session?_after (b : Broker) (e : Event) (agent : String) :
    (b.after e).session? agent = b.session? agent ∨ (b.after e).session? agent = none ∨
      ∃ now elapsed awaited channel ticket,
        e = .command now elapsed awaited (.connect agent channel ticket) ∧
        (b.after e).session? agent = some channel := by
  cases e with
  | command now elapsed awaited c =>
    have kept {posts : List (Channel × Notice)} {b b' : Broker} (rest : Aftermath b posts b') :
        b'.session? agent = b.session? agent ∨ b'.session? agent = none :=
      (rest.agents agent).imp And.left And.left
    have effect := apply_effect b now elapsed awaited c
    rw [after]
    generalize (b.apply now elapsed awaited c).2 = b' at effect ⊢
    cases effect with
    | @admits other channel ticket fresh =>
      rw [session?_withSession]
      split
      next same =>
        subst same
        exact .inr (.inr ⟨now, elapsed, awaited, channel, ticket, rfl, rfl⟩)
      · exact .inl rfl
    | serves connected asks answered =>
      obtain ⟨answers, rest, -⟩ := answered
      have same := kept rest
      rw [session?_edit] at same
      exact same.imp_right .inl
    | keeps rest => exact (kept rest).imp_right .inl
  | _ => exact .inl rfl

theorem session?_meets {b : Broker} (moves : List Encounter) {agent : String} {j : Channel}
    (session : (b.meets agentOf moves).session? agent = some j) :
    b.session? agent = some j ∨ j ∈ admissions moves ∧ agentOf j = agent := by
  induction moves generalizing b with
  | nil => exact .inl session
  | cons m rest ih =>
    rcases ih session with before | ⟨later, same⟩
    · rcases b.session?_after (m.event agentOf) agent with kept | gone | new
      · exact .inl (kept.symm.trans before)
      · rw [gone] at before
        cases before
      · obtain ⟨now, elapsed, awaited, channel, ticket, event, brought⟩ := new
        rw [brought] at before
        cases before
        cases m with
        | connection k _ _ _ part =>
          cases part with
          | admission =>
            cases event
            exact .inr ⟨List.mem_cons_self, rfl⟩
          | envelope => cases event
          | leave => cases event
        | elsewhere e =>
          have none := e.2
          rw [show e.1 = _ from event] at none
          cases none
    · refine .inr ⟨?_, same⟩
      exact (List.sublist_cons_self m rest).filterMap _ |>.subset later

theorem session?_of_admitted {b : Broker} {agent : String} (fresh : ¬ b.isConnected agent)
    (now elapsed : Nanos) (channel : Channel) (ticket : Ticket) :
    (b.after (.command now elapsed true (.connect agent channel ticket))).session? agent =
      some channel := by
  have admitted : b.after (.command now elapsed true (.connect agent channel ticket)) =
      b.withSession agent channel := by
    rw [after, apply, connect_eq fresh]
    rfl
  rw [admitted, session?_withSession, if_pos rfl]

theorem after_envelope_eq {b : Broker} {agent : String} (gone : ¬ b.isConnected agent)
    (now elapsed : Nanos) (awaited : Bool) (e : Envelope) :
    b.after (.command now elapsed awaited (.envelope agent e)) = b := by
  rw [after, apply, if_neg gone]

end Broker

theorem partsOf_append (k : Channel) (xs ys : List Encounter) :
    partsOf k (xs ++ ys) = partsOf k xs ++ partsOf k ys :=
  List.filterMap_append

theorem exists_first_part {k : Channel} {moves : List Encounter} {part : Part} {parts : List Part}
    (h : partsOf k moves = part :: parts) :
    ∃ past now elapsed awaited rest,
      moves = past ++ .connection k now elapsed awaited part :: rest ∧ partsOf k rest = parts := by
  induction moves with
  | nil => cases h
  | cons m moves ih =>
    rw [partsOf, List.filterMap_cons] at h
    cases found : m.part? k with
    | none =>
      rw [found] at h
      obtain ⟨past, now, elapsed, awaited, rest, rfl, same⟩ := ih h
      exact ⟨m :: past, now, elapsed, awaited, rest, rfl, same⟩
    | some p =>
      rw [found] at h
      cases h
      cases m with
      | connection k' now elapsed awaited p' =>
        rw [Encounter.part?] at found
        split at found
        next same =>
          cases found
          subst same
          exact ⟨[], now, elapsed, awaited, moves, rfl, rfl⟩
        · cases found
      | elsewhere => cases found

theorem Interleaved.exists_admission {before later : List Encounter} {k : Channel}
    {now elapsed : Nanos} {awaited : Bool} {e : Envelope}
    (h : Interleaved agentOf notifications
      (before ++ .connection k now elapsed awaited (.envelope e) :: later)) :
    ∃ past now elapsed ticket since,
      before = past ++ .connection k now elapsed true (.admission ticket) :: since ∧
      ¬ ((Broker.start notifications).meets agentOf past).isConnected (agentOf k) := by
  have own : partsOf k (.connection k now elapsed awaited (.envelope e) :: later) =
      .envelope e :: partsOf k later := by
    rw [partsOf, List.filterMap_cons, Encounter.part?, if_pos rfl]
    rfl
  obtain ⟨ticket, es, stream⟩ := h.streams k
  rw [partsOf_append, own] at stream
  cases first : partsOf k before with
  | nil =>
    rw [first] at stream
    cases (List.cons_prefix_cons.mp stream).1
  | cons part parts =>
    rw [first] at stream
    obtain ⟨rfl, -⟩ := List.cons_prefix_cons.mp stream
    obtain ⟨past, now', elapsed', awaited', since, rfl, -⟩ := exists_first_part first
    have more :
        partsOf k (since ++ .connection k now elapsed awaited (.envelope e) :: later) ≠ [] := by
      rw [partsOf_append, own]
      exact List.append_ne_nil_of_right_ne_nil _ (List.cons_ne_nil _ _)
    obtain ⟨granted, fresh⟩ := h.admitted (List.append_assoc _ _ _) more
    subst granted
    exact ⟨past, now', elapsed', ticket, since, rfl, fresh⟩

/-- An envelope has an effect only while its agent has a session. This session is the one that its
connection was admitted with, or that of a connection of the same agent that has asked for its
admission since then. -/
theorem session_of_effect {before later : List Encounter} {k : Channel} {now elapsed : Nanos}
    {awaited : Bool} {e : Envelope}
    (interleaved : Interleaved agentOf notifications
      (before ++ .connection k now elapsed awaited (.envelope e) :: later))
    (effect : ((Broker.start notifications).meets agentOf before).after
        (.command now elapsed awaited (.envelope (agentOf k) e)) ≠
      (Broker.start notifications).meets agentOf before) :
    ∃ past now elapsed ticket since,
      before = past ++ .connection k now elapsed true (.admission ticket) :: since ∧
      ∃ j, ((Broker.start notifications).meets agentOf before).session? (agentOf k) = some j ∧
        agentOf j = agentOf k ∧ (j = k ∨ j ∈ admissions since) := by
  obtain ⟨past, now', elapsed', ticket, since, split, fresh⟩ := interleaved.exists_admission
  refine ⟨past, now', elapsed', ticket, since, split, ?_⟩
  have connected : ((Broker.start notifications).meets agentOf before).isConnected (agentOf k) := by
    refine Decidable.byContradiction fun gone => ?_
    exact effect (Broker.after_envelope_eq gone now elapsed awaited e)
  obtain ⟨j, session⟩ := Broker.isConnected_iff.mp connected
  refine ⟨j, session, ?_⟩
  have whole : (Broker.start notifications).meets agentOf before =
      (((Broker.start notifications).meets agentOf past).after
        (.command now' elapsed' true (.connect (agentOf k) k ticket))).meets agentOf since := by
    rw [split, Broker.meets, List.map_append, Run.last_append]
    rfl
  rw [whole] at session
  rcases Broker.session?_meets since session with own | ⟨later, same⟩
  · rw [Broker.session?_of_admitted fresh] at own
    cases own
    exact ⟨rfl, .inl rfl⟩
  · exact ⟨same, .inr later⟩

def lateService : Envelope := .ofRequest (.registerService ⟨⟨"book", [], ""⟩, ∅⟩)

/-- The broker drops the first session of an agent and admits the agent again. -/
def readmission : List Encounter :=
  [.connection 1 0 0 true (.admission 0),
    .elsewhere ⟨.command 0 0 false (.disconnect "A"), rfl⟩,
    .connection 2 0 0 true (.admission 1)]

theorem interleaved_readmission :
    Interleaved (fun _ => "A") default
      (readmission ++ [.connection 1 0 0 false (.envelope lateService)]) where
  streams k := by
    by_cases first : 1 = k
    · subst first
      exact ⟨0, [lateService], [.leave], rfl⟩
    · by_cases second : 2 = k
      · subst second
        exact ⟨1, [], [.leave], rfl⟩
      · have silent : partsOf k (readmission ++
            [.connection 1 0 0 false (.envelope lateService)]) = [] := by
          simp [partsOf, readmission, Encounter.part?, first, second]
        rw [silent]
        exact ⟨0, [], List.nil_prefix⟩
  admitted {past} _ _ _ _ _ _ split _ := by
    match past with
    | [] =>
      cases split
      exact ⟨rfl, by decide⟩
    | [_] => cases split
    | [_, _] =>
      cases split
      exact ⟨rfl, by decide⟩
    | [_, _, _] => cases split
    | _ :: _ :: _ :: _ :: _ => simp [readmission] at split

/-- The envelope of the first connection registers its service for the session of the second. -/
theorem late_envelope_readmission :
    Interleaved (fun _ => "A") default
      (readmission ++ [.connection 1 0 0 false (.envelope lateService)]) ∧
    let b := (Broker.start default).meets (fun _ => "A") readmission
    b.session? "A" = some 2 ∧ b.stats.services = 0 ∧
      (b.after (.command 0 0 false (.envelope "A" lateService))).stats.services = 1 :=
  ⟨interleaved_readmission, by decide, by decide, by decide⟩

/-- There the session is that of a connection that has come since. -/
theorem session_of_effect_readmission :
    let b := (Broker.start default).meets (fun _ => "A") readmission
    b.after (.command 0 0 false (.envelope "A" lateService)) ≠ b ∧
      ∃ past now elapsed ticket since,
        readmission = past ++ .connection 1 now elapsed true (.admission ticket) :: since ∧
        ∃ j, b.session? "A" = some j ∧ "A" = "A" ∧ (j = 1 ∨ j ∈ admissions since) := by
  intro b
  have effect : b.after (.command 0 0 false (.envelope "A" lateService)) ≠ b := fun same => by
    have counts : (b.after (.command 0 0 false (.envelope "A" lateService))).stats.services =
        b.stats.services := by rw [same]
    revert counts
    decide
  exact ⟨effect, session_of_effect interleaved_readmission effect⟩

end AgentBroker
