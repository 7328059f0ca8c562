import AgentBroker.Proofs.Broker.Readers
import AgentBroker.Proofs.Negotiation.Turn
import AgentBroker.Proofs.Scheduler.Requests
import Mathlib.Logic.Function.Basic

/-!
# Agents that negotiate

Any number of agents negotiate with each other, and everyone keeps a book of its dialogues. What
they say comes to the queue in its order, some time later, and what is delivered to them waits until
they take notice of it. Anything else may happen at the scheduler in between, also negotiation
messages from others under the same identifiers.
-/

namespace AgentBroker

open Scheduler Ledger DialogueBook

structure Parley where
  scheduler : Scheduler
  books : String → DialogueBook
  /-- What the agents have said and the queue has not got yet, oldest first. -/
  outbox : String → List Envelope
  /-- What the agents have got from their mailboxes and not taken notice of yet, oldest first. -/
  inbox : String → List Notice

namespace Parley

def start (notifications : NotificationSettings) : Parley :=
  ⟨.start notifications, fun _ => .empty, fun _ => [], fun _ => []⟩

inductive Move where
  /-- An agent says something to a peer in one of its dialogues. -/
  | say (agent : String) (id : Uuid) (peer : String) (step : Step)
  /-- The queue gets what an agent has said. -/
  | forward (agent : String)
  /-- The reader of a mailbox gets what has waited there longest. -/
  | collect (channel : Channel)
  /-- An agent takes notice of what it has got. -/
  | hear (agent : String)
  | elsewhere (a : Scheduler.Action Unit)

variable (reader : Channel → String)

def act (c : Parley) : Move → Parley
  | .say agent id peer step =>
    let (m, book) := (c.books agent).compose id peer step
    { c with
      books := Function.update c.books agent book
      outbox := Function.update c.outbox agent
        (c.outbox agent ++ [.negotiation id.text peer m.msgId m.target m.step]) }
  | .forward agent =>
    match c.outbox agent with
    | [] => c
    | e :: rest =>
      { c with
        scheduler := c.scheduler.enqueue (.envelope agent e)
        outbox := Function.update c.outbox agent rest }
  | .collect channel =>
    match c.scheduler.broker.mailboxes.takeFirst? channel with
    | none => c
    | some (n, mailboxes) =>
      { c with
        scheduler.broker.mailboxes := mailboxes
        inbox := Function.update c.inbox (reader channel) (c.inbox (reader channel) ++ [n]) }
  | .hear agent =>
    match c.inbox agent with
    | [] => c
    | n :: rest =>
      { c with
        books := Function.update c.books agent
          ((n.delivery?.map (c.books agent).receive).getD (c.books agent))
        inbox := Function.update c.inbox agent rest }
  | .elsewhere a => { c with scheduler := c.scheduler.act a }

def after (c : Parley) (moves : List Move) : Parley := Run.last (act reader) c moves

def entries (agent : String) (id : Uuid) (c : Parley) : Move → List Entry
  | .say a i peer step =>
    if a = agent ∧ i = id then [.said ⟨agent, peer, ((c.books agent).compose id peer step).1⟩]
    else []
  | .hear a =>
    if a = agent then
      (((c.inbox agent).head?.bind Notice.delivery?).bind (reading? id agent)).toList.map .heard
    else []
  | _ => []

/-- All that an agent says and hears in a dialogue in the course of a run. -/
def diary (agent : String) (id : Uuid) (c : Parley) (moves : List Move) : List Entry :=
  Run.log (act reader) (entries agent id) c moves

def dealings (c : Parley) : Move → List (Scheduler.Action Unit)
  | .forward agent => (c.outbox agent).head?.toList.map fun e => .post () ⟨.envelope agent e, rfl⟩
  | .collect channel => [.outside ⟨.takeFirst channel, rfl⟩]
  | .elsewhere a => [a]
  | _ => []

def actions (c : Parley) (moves : List Move) : List (Scheduler.Action Unit) :=
  Run.log (act reader) dealings c moves

def carried (c : Parley) (moves : List Move) : List Broker.Event :=
  c.scheduler.carried (c.actions reader moves)

def brings (c : Parley) : Move → List Command
  | .elsewhere a => (c.scheduler.brings a).map (·.2)
  | _ => []

/-- The commands that come to the queue otherwise than from what agents say. -/
def others (c : Parley) (moves : List Move) : List Command :=
  Run.log (act reader) brings c moves

def arrivals (c : Parley) (m : Move) : List Command :=
  (c.scheduler.brought (c.dealings m)).map (·.2)

def brought (c : Parley) (moves : List Move) : List Command :=
  (c.scheduler.brought (c.actions reader moves)).map (·.2)

variable {reader : Channel → String} {c : Parley} {moves : List Move} {agent : String} {id : Uuid}
  {notifications : NotificationSettings}

theorem scheduler_act (c : Parley) (m : Move) :
    (c.act reader m).scheduler = c.scheduler.after (c.dealings m) := by
  cases m with
  | say => rfl
  | forward agent =>
    rw [act, dealings]
    cases c.outbox agent <;> rfl
  | collect channel =>
    have takes : c.scheduler.after (c.dealings (.collect channel)) =
        { c.scheduler with broker := c.scheduler.broker.after (.takeFirst channel) } := rfl
    rw [takes, act, Broker.after, Broker.mapMailboxes]
    cases c.scheduler.broker.mailboxes.takeFirst? channel <;> rfl
  | hear agent =>
    rw [act]
    cases c.inbox agent <;> rfl
  | elsewhere a => rfl

theorem books_act (c : Parley) (m : Move) (agent : String) :
    (c.act reader m).books agent =
      match m with
      | .say a id peer step =>
        if a = agent then ((c.books agent).compose id peer step).2 else c.books agent
      | .hear a =>
        if a = agent then
          ((c.inbox agent).head?.bind Notice.delivery?).elim (c.books agent)
            (c.books agent).receive
        else c.books agent
      | _ => c.books agent := by
  cases m with
  | say a id peer step =>
    by_cases own : a = agent
    · subst own
      simp [act]
    · simp [act, own, Function.update_of_ne (Ne.symm own)]
  | hear a =>
    by_cases own : a = agent
    · subst own
      rw [act]
      cases c.inbox a with
      | nil => simp
      | cons n rest => cases came : n.delivery? <;> simp [came]
    · rw [act]
      cases c.inbox a with
      | nil => simp [own]
      | cons n rest => simp [own, Function.update_of_ne (Ne.symm own)]
  | forward a | collect channel =>
    rw [act]
    split <;> rfl
  | elsewhere a => rfl

theorem outbox_act (c : Parley) (m : Move) (agent : String) :
    (c.act reader m).outbox agent =
      match m with
      | .say a id peer step =>
        let m := ((c.books agent).compose id peer step).1
        if a = agent then
          c.outbox agent ++ [.negotiation id.text peer m.msgId m.target m.step]
        else c.outbox agent
      | .forward a => if a = agent then (c.outbox agent).tail else c.outbox agent
      | _ => c.outbox agent := by
  cases m with
  | say a id peer step =>
    by_cases own : a = agent
    · subst own
      simp [act]
    · simp [act, own, Function.update_of_ne (Ne.symm own)]
  | forward a =>
    by_cases own : a = agent
    · subst own
      rw [act]
      cases waits : c.outbox a <;> simp [waits]
    · rw [act]
      cases c.outbox a with
      | nil => simp [own]
      | cons e rest => simp [own, Function.update_of_ne (Ne.symm own)]
  | collect channel | hear a =>
    rw [act]
    split <;> rfl
  | elsewhere a => rfl

theorem inbox_hear (c : Parley) (a agent : String) :
    (c.act reader (.hear a)).inbox agent =
      if a = agent then (c.inbox agent).tail else c.inbox agent := by
  rw [act]
  by_cases own : a = agent
  · subst own
    cases waits : c.inbox a <;> simp [waits]
  · cases c.inbox a with
    | nil => simp [own]
    | cons n rest => simp [own, Function.update_of_ne (Ne.symm own)]

theorem arrivals_eq (c : Parley) (m : Move) :
    c.arrivals m =
      match m with
      | .forward a => (c.outbox a).head?.toList.map (.envelope a)
      | .elsewhere a => c.brings (.elsewhere a)
      | _ => [] := by
  cases m with
  | forward a =>
    dsimp only [arrivals, dealings]
    cases c.outbox a <;> rfl
  | elsewhere a =>
    have whole : c.scheduler.brought [a] = c.scheduler.brings a := List.append_nil _
    rw [arrivals, dealings, whole]
    rfl
  | _ => rfl

theorem said_entries (c : Parley) (m : Move) :
    said (c.entries agent id m) =
      match m with
      | .say a i peer step =>
        if a = agent ∧ i = id then [⟨agent, peer, ((c.books agent).compose id peer step).1⟩]
        else []
      | _ => [] := by
  cases m with
  | say a i peer step =>
    dsimp only [entries]
    split <;> rfl
  | hear a =>
    rw [entries]
    split
    · generalize ((c.inbox agent).head?.bind Notice.delivery?).bind (reading? id agent) = found
      cases found <;> rfl
    · rfl
  | _ => rfl

theorem scheduler_after (c : Parley) (moves : List Move) :
    (c.after reader moves).scheduler = c.scheduler.after (c.actions reader moves) := by
  induction moves generalizing c with
  | nil => rfl
  | cons m rest ih =>
    have later := ih (c.act reader m)
    rw [scheduler_act, ← Scheduler.after_append] at later
    exact later

theorem broker_after (moves : List Move) :
    ((start notifications).after reader moves).scheduler.broker =
      Broker.replay notifications ((start notifications).carried reader moves) := by
  rw [scheduler_after, Scheduler.broker_after]
  rfl

theorem after_concat (c : Parley) (moves : List Move) (m : Move) :
    c.after reader (moves ++ [m]) = (c.after reader moves).act reader m :=
  Run.last_concat c moves m

theorem diary_concat (c : Parley) (moves : List Move) (m : Move) :
    c.diary reader agent id (moves ++ [m]) =
      c.diary reader agent id moves ++ (c.after reader moves).entries agent id m :=
  Run.log_concat c moves m

theorem others_concat (c : Parley) (moves : List Move) (m : Move) :
    c.others reader (moves ++ [m]) = c.others reader moves ++ (c.after reader moves).brings m :=
  Run.log_concat c moves m

theorem brought_concat (c : Parley) (moves : List Move) (m : Move) :
    c.brought reader (moves ++ [m]) =
      c.brought reader moves ++ (c.after reader moves).arrivals m := by
  rw [brought, actions, Run.log_concat, Scheduler.brought, Run.log_append, List.map_append,
    arrivals, scheduler_after]
  rfl

theorem carried_concat (c : Parley) (moves : List Move) (m : Move) :
    c.carried reader (moves ++ [m]) =
      c.carried reader moves ++
        (c.after reader moves).scheduler.carried ((c.after reader moves).dealings m) := by
  rw [carried, actions, Run.log_concat, Scheduler.carried, Run.log_append, scheduler_after]
  rfl

theorem thread_concat (moves : List Move) (m : Move) :
    (Broker.start notifications).thread id.text
        ((start notifications).carried reader (moves ++ [m])) =
      (Broker.start notifications).thread id.text ((start notifications).carried reader moves) ++
        ((start notifications).after reader moves).scheduler.broker.thread id.text
          (((start notifications).after reader moves).scheduler.carried
            (((start notifications).after reader moves).dealings m)) := by
  rw [carried_concat, Broker.thread, Run.log_append, broker_after]
  rfl

theorem keeps_act {m : Move} {diary : List Entry} (keeps : (c.books agent).Keeps id diary) :
    ((c.act reader m).books agent).Keeps id (diary ++ c.entries agent id m) := by
  rw [books_act]
  cases m with
  | say a i peer step =>
    dsimp only [entries]
    by_cases own : a = agent
    · subst own
      rw [if_pos rfl]
      by_cases same : i = id
      · subst same
        rw [if_pos ⟨rfl, rfl⟩]
        exact keeps.compose a peer step
      · rw [if_neg fun both => same both.2, List.append_nil]
        exact keeps.compose_other same peer step
    · rwa [if_neg own, if_neg fun both => own both.1, List.append_nil]
  | hear a =>
    dsimp only [entries]
    by_cases own : a = agent
    · subst own
      rw [if_pos rfl, if_pos rfl]
      cases (c.inbox a).head?.bind Notice.delivery? with
      | none => exact (List.append_nil diary).symm ▸ keeps
      | some d => exact keeps.receive a d
    · rwa [if_neg own, if_neg own, List.append_nil]
  | _ => exact (List.append_nil diary).symm ▸ keeps

/-- Every book holds the numbers that the diaries of its agent ask for. -/
theorem keeps_after (moves : List Move) (agent : String) (id : Uuid) :
    (((start notifications).after reader moves).books agent).Keeps id
      ((start notifications).diary reader agent id moves) := by
  induction moves using List.reverseRecOn with
  | nil => exact keeps_empty id
  | append_singleton moves m ih =>
    rw [after_concat, diary_concat]
    exact keeps_act ih

def saying? (agent : String) (id : Uuid) (command : Command) : Option Posting :=
  command.posting?.bind fun (text, p) => if p.sender = agent ∧ text = id.text then some p else none

def sayings (agent : String) (id : Uuid) (envelopes : List Envelope) : List Posting :=
  envelopes.filterMap fun e => saying? agent id (.envelope agent e)

theorem saying?_eq_some {command : Command} {p : Posting} :
    saying? agent id command = some p ↔
      command.posting? = some (id.text, p) ∧ p.sender = agent := by
  rw [saying?, Option.bind_eq_some_iff]
  constructor
  · rintro ⟨⟨text, q⟩, posting, found⟩
    obtain ⟨own, same⟩ := Option.ite_none_right_eq_some.mp found
    cases same
    exact ⟨own.2 ▸ posting, own.1⟩
  · rintro ⟨posting, own⟩
    exact ⟨_, posting, if_pos ⟨own, rfl⟩⟩

theorem saying?_negotiation (agent : String) (id i : Uuid) (peer : String)
    (m : NegotiationMessage) :
    saying? agent id (.envelope agent (.negotiation i.text peer m.msgId m.target m.step)) =
      if i = id then some ⟨agent, peer, m⟩ else none := by
  have posting : (Command.envelope agent
      (.negotiation i.text peer m.msgId m.target m.step)).posting? =
      some (i.text, ⟨agent, peer, m⟩) := rfl
  rw [saying?, posting, Option.bind_some]
  simp only [true_and, Uuid.text_injective.eq_iff]

theorem saying?_envelope_of_ne {sender : String} (other : sender ≠ agent) (e : Envelope) :
    saying? agent id (.envelope sender e) = none := by
  refine Option.eq_none_iff_forall_ne_some.mpr fun p some => ?_
  obtain ⟨posting, own⟩ := saying?_eq_some.mp some
  have sender := (Envelope.posting?_eq_some.mp posting).2
  exact other (sender.symm.trans own)

theorem sayings_append (xs ys : List Envelope) :
    sayings agent id (xs ++ ys) = sayings agent id xs ++ sayings agent id ys :=
  List.filterMap_append

theorem sayings_act {m : Move}
    (alone : ∀ command ∈ c.brings m, ∀ text p, command.posting? = some (text, p) →
      p.sender ≠ agent) :
    sayings agent id (c.outbox agent) ++ said (c.entries agent id m) =
      (c.arrivals m).filterMap (saying? agent id) ++
        sayings agent id ((c.act reader m).outbox agent) := by
  rw [outbox_act, said_entries, arrivals_eq]
  cases m with
  | say a i peer step =>
    dsimp only
    by_cases own : a = agent
    · subst own
      rw [if_pos rfl, sayings_append, List.filterMap_nil, List.nil_append]
      congr 1
      by_cases same : i = id <;> simp [sayings, saying?_negotiation, same]
    · rw [if_neg own, if_neg fun both => own both.1, List.append_nil]
      rfl
  | forward a =>
    dsimp only
    rw [List.append_nil]
    by_cases own : a = agent
    · subst own
      rw [if_pos rfl]
      cases c.outbox a with
      | nil => rfl
      | cons e rest => exact sayings_append [e] rest
    · rw [if_neg own]
      cases c.outbox a with
      | nil => rfl
      | cons e rest =>
        have silent : [Command.envelope a e].filterMap (saying? agent id) = [] :=
          List.filterMap_cons_none (saying?_envelope_of_ne own e)
        exact (congrArg (· ++ _) silent).symm
  | elsewhere a =>
    have silent : (c.brings (.elsewhere a)).filterMap (saying? agent id) = [] := by
      refine List.filterMap_eq_nil_iff.mpr fun command mem => ?_
      refine Option.eq_none_iff_forall_ne_some.mpr fun p some => ?_
      obtain ⟨posting, own⟩ := saying?_eq_some.mp some
      exact alone command mem _ p posting own
    dsimp only
    rw [silent, List.append_nil, List.nil_append]
  | _ => exact List.append_nil _

/-- What an agent has said has come to the queue or is still on its way there, in its order. -/
theorem said_diary (moves : List Move)
    (alone : ∀ command ∈ (start notifications).others reader moves,
      ∀ text p, command.posting? = some (text, p) → p.sender ≠ agent) :
    said ((start notifications).diary reader agent id moves) =
      ((start notifications).brought reader moves).filterMap (saying? agent id) ++
        sayings agent id (((start notifications).after reader moves).outbox agent) := by
  induction moves using List.reverseRecOn with
  | nil => rfl
  | append_singleton moves m ih =>
    rw [others_concat] at alone
    have earlier := ih fun command mem => alone command (List.mem_append_left _ mem)
    have here := @sayings_act reader _ agent id m fun command mem =>
      alone command (List.mem_append_right _ mem)
    rw [diary_concat, said_append, earlier, List.append_assoc, here, brought_concat,
      List.filterMap_append, after_concat, List.append_assoc]

theorem fair_negotiation (agent : String) (id : Uuid) (peer : String) (m : NegotiationMessage) :
    (Command.envelope agent (.negotiation id.text peer m.msgId m.target m.step)).Fair reader where
  quiet := rfl
  own := nofun
  spelled text p posting := by
    have same : some (id.text, (⟨agent, peer, m⟩ : Posting)) = some (text, p) := posting
    cases same
    exact ⟨id, rfl⟩

theorem fair_act {m : Move} (waits : ∀ a, ∀ e ∈ c.outbox a, (Command.envelope a e).Fair reader)
    (brings : ∀ command ∈ c.brings m, command.Fair reader) :
    (∀ a, ∀ e ∈ (c.act reader m).outbox a, (Command.envelope a e).Fair reader) ∧
      ∀ command ∈ c.arrivals m, command.Fair reader := by
  simp only [outbox_act, arrivals_eq]
  cases m with
  | say agent id peer step =>
    refine ⟨fun a e mem => ?_, nofun⟩
    dsimp only at mem
    split at mem
    · rcases List.mem_append.mp mem with old | new
      · exact waits a e old
      · rw [List.mem_singleton.mp new]
        exact fair_negotiation a id peer ((c.books a).compose id peer step).1
    · exact waits a e mem
  | forward agent =>
    refine ⟨fun a e mem => ?_, fun command mem => ?_⟩
    · dsimp only at mem
      split at mem
      · exact waits a e (List.mem_of_mem_tail mem)
      · exact waits a e mem
    · obtain ⟨e, first, rfl⟩ := List.mem_map.mp mem
      exact waits agent e (List.mem_of_mem_head? (Option.mem_toList.mp first))
  | elsewhere a => exact ⟨waits, brings⟩
  | _ => exact ⟨waits, nofun⟩

theorem fair_brought (moves : List Move)
    (fair : ∀ command ∈ (start notifications).others reader moves, command.Fair reader) :
    (∀ a, ∀ e ∈ ((start notifications).after reader moves).outbox a,
        (Command.envelope a e).Fair reader) ∧
      ∀ command ∈ (start notifications).brought reader moves, command.Fair reader := by
  induction moves using List.reverseRecOn with
  | nil => exact ⟨nofun, nofun⟩
  | append_singleton moves m ih =>
    rw [others_concat] at fair
    obtain ⟨waits, came⟩ := ih fun command mem => fair command (List.mem_append_left _ mem)
    obtain ⟨waits', comes⟩ := fair_act waits fun command mem =>
      fair command (List.mem_append_right _ mem)
    rw [after_concat, brought_concat]
    refine ⟨waits', fun command mem => ?_⟩
    exact (List.mem_append.mp mem).elim (came command) (comes command)

theorem fair_carried (moves : List Move)
    (fair : ∀ command ∈ (start notifications).others reader moves, command.Fair reader) :
    (∀ command ∈ ((start notifications).after reader moves).scheduler.queue, command.Fair reader) ∧
      ∀ command ∈ Broker.commands ((start notifications).carried reader moves),
        command.Fair reader := by
  have came := (fair_brought moves fair).2
  have nothing : ∀ command ∈ (start notifications).scheduler.queue, command.Fair reader := nofun
  rw [scheduler_after]
  exact all_of_brought nothing fun x mem => came x.2 (List.mem_map_of_mem mem)

def unheard (agent : String) (id : Uuid) (notices : List Notice) : List Posting :=
  notices.filterMap fun n => n.delivery?.bind (reading? id agent)

theorem heard_collect (c : Parley) (channel : Channel) :
    (unheard agent id ((c.act reader (.collect channel)).inbox agent) ++
        Broker.readings reader id agent
          (c.act reader (.collect channel)).scheduler.broker.mailboxes.waiting).Perm
      (unheard agent id (c.inbox agent) ++
        Broker.readings reader id agent c.scheduler.broker.mailboxes.waiting) := by
  rw [act, Mailboxes.takeFirst?]
  cases first : c.scheduler.broker.mailboxes.waiting.find? (·.1 == channel) with
  | none => exact .refl _
  | some post =>
    obtain ⟨here, older, newer, split, others⟩ := List.find?_eq_some_iff_append.mp first
    have channel_eq : post.1 = channel := beq_iff_eq.mp here
    have erased :
        c.scheduler.broker.mailboxes.waiting.eraseP (·.1 == channel) = older ++ newer := by
      rw [split, List.eraseP_append_right _ (by simpa using others)]
      exact congrArg (older ++ ·) (List.eraseP_cons_of_pos here)
    have taken : unheard agent id
        (Function.update c.inbox (reader channel) (c.inbox (reader channel) ++ [post.2]) agent) =
        unheard agent id (c.inbox agent) ++ Broker.readings reader id agent [post] := by
      by_cases own : reader channel = agent
      · subst own
        rw [Function.update_self, unheard, List.filterMap_append]
        simp [unheard, Broker.readings, List.filterMap_cons, channel_eq]
      · rw [Function.update_of_ne (Ne.symm own)]
        simp [Broker.readings, channel_eq, own]
    have whole : Broker.readings reader id agent c.scheduler.broker.mailboxes.waiting =
        Broker.readings reader id agent older ++ (Broker.readings reader id agent [post] ++
          Broker.readings reader id agent newer) := by
      rw [split, List.append_cons, List.append_assoc, Broker.readings_append,
        Broker.readings_append]
    simp only [Option.map_some]
    rw [taken, erased, Broker.readings_append, whole, List.append_assoc]
    exact (List.perm_append_comm_assoc _ _ _).append_left _

theorem unheard_append (xs ys : List Notice) :
    unheard agent id (xs ++ ys) = unheard agent id xs ++ unheard agent id ys :=
  List.filterMap_append

theorem heard_entries (c : Parley) (a : String) :
    heard (c.entries agent id (.hear a)) =
      if a = agent then unheard agent id (c.inbox agent).head?.toList else [] := by
  dsimp only [entries]
  split
  · cases (c.inbox agent).head? with
    | none => rfl
    | some n =>
      rw [Option.toList_some, unheard, List.filterMap_cons, Option.bind_some]
      cases n.delivery?.bind (reading? id agent) <;> rfl
  · rfl

theorem heard_hear (c : Parley) (a : String) :
    heard (c.entries agent id (.hear a)) ++
        unheard agent id ((c.act reader (.hear a)).inbox agent) =
      unheard agent id (c.inbox agent) := by
  rw [heard_entries, inbox_hear]
  split
  · rw [← unheard_append]
    cases c.inbox agent <;> rfl
  · rfl

theorem heard_act {m : Move} (owned : c.scheduler.broker.Owned reader)
    (fair : ∀ command ∈ Broker.commands (c.scheduler.carried (c.dealings m)),
      command.Fair reader) :
    (heard (c.entries agent id m) ++
        (unheard agent id ((c.act reader m).inbox agent) ++
          Broker.readings reader id agent
            (c.act reader m).scheduler.broker.mailboxes.waiting)).Subperm
      (unheard agent id (c.inbox agent) ++
          Broker.readings reader id agent c.scheduler.broker.mailboxes.waiting ++
        (c.scheduler.broker.thread id.text (c.scheduler.carried (c.dealings m))).filter
          (·.receiver = agent)) := by
  -- Where nobody collects anything, only the scheduler brings something.
  have arrives (same : heard (c.entries agent id m) ++
        unheard agent id ((c.act reader m).inbox agent) = unheard agent id (c.inbox agent)) :
      (heard (c.entries agent id m) ++
          (unheard agent id ((c.act reader m).inbox agent) ++
            Broker.readings reader id agent
              (c.act reader m).scheduler.broker.mailboxes.waiting)).Subperm
        (unheard agent id (c.inbox agent) ++
            Broker.readings reader id agent c.scheduler.broker.mailboxes.waiting ++
          (c.scheduler.broker.thread id.text (c.scheduler.carried (c.dealings m))).filter
            (·.receiver = agent)) := by
    rw [← List.append_assoc, same, List.append_assoc, scheduler_act, Scheduler.broker_after]
    exact ((Broker.readings_run owned fair).append_left _).subperm
  cases m with
  | say a i peer step =>
    refine arrives ?_
    dsimp only [entries]
    split <;> rfl
  | forward a =>
    refine arrives ?_
    rw [act]
    split <;> rfl
  | collect channel =>
    exact ((heard_collect c channel).subperm).trans (List.sublist_append_left _ _).subperm
  | hear a => exact arrives (heard_hear c a)
  | elsewhere a => exact arrives rfl

/-- What an agent has heard, or is still to hear, is what the ledger has accepted for it. -/
theorem heard_diary (moves : List Move)
    (fair : ∀ command ∈ (start notifications).others reader moves, command.Fair reader) :
    (heard ((start notifications).diary reader agent id moves) ++
        (unheard agent id (((start notifications).after reader moves).inbox agent) ++
          Broker.readings reader id agent
            ((start notifications).after reader moves).scheduler.broker.mailboxes.waiting)).Subperm
      (((Broker.start notifications).thread id.text
        ((start notifications).carried reader moves)).filter (·.receiver = agent)) := by
  induction moves using List.reverseRecOn with
  | nil => exact .refl _
  | append_singleton moves m ih =>
    rw [others_concat] at fair
    have earlier := ih fun command mem => fair command (List.mem_append_left _ mem)
    have before (command : Command) (mem : command ∈ (start notifications).others reader moves) :
        command.Fair reader := fair command (List.mem_append_left _ mem)
    obtain ⟨queue, done⟩ := fair_carried moves before
    have owned : ((start notifications).after reader moves).scheduler.broker.Owned reader := by
      rw [broker_after]
      exact (Broker.owned_start reader notifications).run done
    have comes := (fair_act (fair_brought moves before).1 fun command mem =>
      fair command (List.mem_append_right _ mem)).2
    have next := @heard_act _ _ agent id m owned
      (all_of_brought queue fun x mem => comes x.2 (List.mem_map_of_mem mem)).2
    have first := List.Subperm.append
      (.refl (heard ((start notifications).diary reader agent id moves))) next
    have second := earlier.append (.refl
      ((((start notifications).after reader moves).scheduler.broker.thread id.text
        (((start notifications).after reader moves).scheduler.carried
          (((start notifications).after reader moves).dealings m))).filter (·.receiver = agent)))
    rw [diary_concat, heard_append, after_concat, thread_concat, List.filter_append,
      List.append_assoc]
    rw [List.append_assoc] at second
    exact first.trans second

/-- The parties of a conversation have stayed connected since it was opened, and it has not
expired. -/
structure Endures (id : String) (agent peer : String) (notifications : NotificationSettings)
    (events : List Broker.Event) : Prop where
  together : ∀ past later, events = past ++ later →
    (Broker.start notifications).thread id past ≠ [] →
    (Broker.replay notifications past).isConnected agent ∧
      (Broker.replay notifications past).isConnected peer
  unexpired : ∀ past e later, events = past ++ e :: later →
    ¬ (Broker.replay notifications past).Expires id e

/-- What an agent says to a peer is in turn. -/
inductive InTurn (agent peer : String) (id : Uuid) (move : AgentBroker.Move) (diary : List Entry)
    (notifications : NotificationSettings) (events : List Broker.Event) : Prop
  /-- It calls under an identifier that has not been used. -/
  | call (calls : move = .call)
      (unopened : (Broker.replay notifications events).ledger.get? id.text = none)
      (unretired : (Broker.replay notifications events).ledger.isRetired id.text = false)
  /-- It answers what it has heard from the peer, and has not answered it before. -/
  | reply {m : NegotiationMessage} {front back : List Entry} (apart : peer ≠ agent)
      (hears : diary = front ++ .heard ⟨peer, agent, m⟩ :: back)
      (due : m.step.move.isAnsweredBy move)
      (unanswered : ∀ q, .said q ∈ back → q.receiver = peer →
        ¬ m.step.move.isAnsweredBy q.message.step.move)
      (endures : Endures id.text agent peer notifications events)

theorem diary_say (before later : List Move) (peer : String) (step : Step) :
    ∃ more, (start notifications).diary reader agent id
        (before ++ .say agent id peer step :: later) =
      (start notifications).diary reader agent id before ++
        .said ⟨agent, peer, ((((start notifications).after reader before).books agent).compose id
          peer step).1⟩ :: more := by
  have here : ((start notifications).after reader before).entries agent id
      (.say agent id peer step) = [.said ⟨agent, peer, ((((start notifications).after reader
        before).books agent).compose id peer step).1⟩] := if_pos ⟨rfl, rfl⟩
  have split := @Run.log_append _ _ _ (act reader) (entries agent id) (start notifications) before
    (.say agent id peer step :: later)
  exact ⟨_, split.trans (congrArg _ (congrArg (· ++ _) here))⟩

theorem front_unique {diary : List Entry} (numbered : Numbered diary)
    (fewer : (said diary).length < 2 ^ 32) {xs ys xs' ys' : List Posting} {p : Posting}
    (split : said diary = xs ++ p :: ys) (split' : said diary = xs' ++ p :: ys') : xs = xs' := by
  have number {xs ys : List Posting} (split : said diary = xs ++ p :: ys) :
      p.message.msgId.toNat = xs.length + 1 := by
    have found : (said diary)[xs.length]? = some p := by rw [split]; simp
    have short : xs.length + 1 < 2 ^ 32 := by
      rw [split, List.length_append, List.length_cons] at fewer
      omega
    rw [numbered.numbers _ _ found, UInt32.toNat_ofNat_of_lt' short]
  have same : xs.length = xs'.length := Nat.succ.inj ((number split).symm.trans (number split'))
  exact (List.append_inj (split.symm.trans split') same).1

/-- When the worker comes to what an agent has said, it has come to all that the agent has said
before in the dialogue, and to nothing that the agent has said since. -/
theorem mem_said_of_mem_thread {peer : String} {m : NegotiationMessage} {front back : List Entry}
    (split : (start notifications).diary reader agent id moves =
      front ++ .said ⟨agent, peer, m⟩ :: back)
    (alone : ∀ command ∈ (start notifications).others reader moves,
      ∀ text p, command.posting? = some (text, p) → p.sender ≠ agent)
    (fewer : (said ((start notifications).diary reader agent id moves)).length < 2 ^ 32)
    (running : ((start notifications).after reader moves).scheduler.phase = .running)
    (first : ((start notifications).after reader moves).scheduler.queue.head? =
      some (.envelope agent (.negotiation id.text peer m.msgId m.target m.step)))
    {q : Posting} (mem : q ∈ (Broker.start notifications).thread id.text
      ((start notifications).carried reader moves)) (own : q.sender = agent) :
    q ∈ said front := by
  obtain ⟨rest, queue⟩ := List.head?_eq_some_iff.mp first
  have flow : (start notifications).scheduler.popped ((start notifications).actions reader moves) ++
        ((start notifications).after reader moves).scheduler.queue =
      (start notifications).brought reader moves := by
    have isOpen : ((start notifications).scheduler.after
        ((start notifications).actions reader moves)).phase ≠ .stopped := by
      rw [← scheduler_after, running]
      nofun
    rw [scheduler_after, popped_queue, (accepted_prefix_brought _ _).2 isOpen]
    rfl
  have order : said ((start notifications).diary reader agent id moves) =
      ((start notifications).scheduler.popped ((start notifications).actions reader
        moves)).filterMap (saying? agent id) ++ ⟨agent, peer, m⟩ :: (rest.filterMap
          (saying? agent id) ++ sayings agent id
            (((start notifications).after reader moves).outbox agent)) := by
    rw [said_diary moves alone, ← flow, queue, List.filterMap_append, List.filterMap_cons,
      saying?_negotiation, if_pos rfl, List.append_assoc]
    rfl
  have order' : said ((start notifications).diary reader agent id moves) =
      said front ++ ⟨agent, peer, m⟩ :: said back := by
    rw [split, said_append]
    rfl
  have numbered := (@keeps_after reader notifications moves agent id).numbered
  rw [← front_unique numbered fewer order order', List.mem_filterMap]
  obtain ⟨command, done, posting⟩ := Broker.exists_of_mem_thread mem
  refine ⟨command, ?_, saying?_eq_some.mpr ⟨posting, own⟩⟩
  have carried : command ∈ Broker.commands ((start notifications).scheduler.carried
      ((start notifications).actions reader moves)) := done
  have started : (start notifications).scheduler.phase = .running := rfl
  rw [commands_carried, if_pos started] at carried
  exact (List.takeWhile_sublist _).subset carried

theorem Endures.live {text peer : String} {events : List Broker.Event}
    (endures : Endures text agent peer notifications events) {p : Posting}
    (mem : p ∈ (Broker.start notifications).thread text events) (sender : p.sender = peer)
    (receiver : p.receiver = agent) :
    (Broker.replay notifications events).ledger.Live text
      ((Broker.start notifications).thread text events) := by
  have orderly := (Broker.threaded_replay notifications text events).recorded.orderly
  have parties {q : Posting} (mem' : q ∈ (Broker.start notifications).thread text events) :
      q.sender = agent ∧ q.receiver = peer ∨ q.sender = peer ∧ q.receiver = agent := by
    obtain ⟨c, first⟩ :=
      Option.isSome_iff_exists.mp (List.isSome_head?.mpr (List.ne_nil_of_mem mem))
    rw [← sender, ← receiver]
    rcases orderly.parties c first p mem with ⟨sp, rp⟩ | ⟨sp, rp⟩ <;>
      rcases orderly.parties c first q mem' with ⟨sq, rq⟩ | ⟨sq, rq⟩ <;>
      simp [sp, rp, sq, rq]
  refine Broker.live_replay notifications events endures.unexpired ?_
  intro past later split q mem'
  have connected := endures.together past later split (List.ne_nil_of_mem mem')
  have within : q ∈ (Broker.start notifications).thread text events := by
    rw [split, Broker.thread, Run.log_append]
    exact List.mem_append_left _ mem'
  rcases parties within with ⟨rfl, rfl⟩ | ⟨rfl, rfl⟩
  · exact connected
  · exact connected.symm

/-- Whatever an agent says in turn is accepted when the worker comes to it. -/
theorem accepted_in_turn {peer : String} {step : Step} {before later : List Move}
    (run : moves = before ++ .say agent id peer step :: later)
    (fair : ∀ command ∈ (start notifications).others reader moves, command.Fair reader)
    (alone : ∀ command ∈ (start notifications).others reader moves,
      ∀ text p, command.posting? = some (text, p) → p.sender ≠ agent)
    (fewer : (said ((start notifications).diary reader agent id moves)).length < 2 ^ 32)
    {m : NegotiationMessage}
    (written : m = ((((start notifications).after reader before).books agent).compose id peer
      step).1)
    (running : ((start notifications).after reader moves).scheduler.phase = .running)
    (first : ((start notifications).after reader moves).scheduler.queue.head? =
      some (.envelope agent (.negotiation id.text peer m.msgId m.target m.step)))
    (turn : InTurn agent peer id step.move ((start notifications).diary reader agent id before)
      notifications ((start notifications).carried reader moves)) (now : Nanos) :
    (((start notifications).after reader moves).scheduler.broker.ledger.observe now agent peer
      id.text m).isOk := by
  obtain ⟨more, split⟩ := @diary_say reader agent id notifications before later peer step
  rw [← written, ← run] at split
  have keeps := @keeps_after reader notifications before agent id
  have threaded := Broker.threaded_replay notifications id.text
    ((start notifications).carried reader moves)
  have moved : m.step = step := by rw [written, compose_fst]
  have next : Next ((start notifications).diary reader agent id before) m :=
    written ▸ keeps.next peer step
  have fits : Fits agent ((start notifications).diary reader agent id before)
      ((Broker.start notifications).thread id.text
        ((start notifications).carried reader moves)) := by
    refine ⟨keeps.numbered, ?_, fun q mem own => ?_, ?_⟩
    · have one : said (.said ⟨agent, peer, m⟩ :: more) = ⟨agent, peer, m⟩ :: said more := rfl
      rw [split, said_append, List.length_append, one, List.length_cons] at fewer
      omega
    · exact mem_said_of_mem_thread split alone fewer running first mem own
    · have whole := @heard_diary reader agent id notifications moves fair
      rw [split, heard_append, List.append_assoc] at whole
      exact (List.sublist_append_left _ _).subperm.trans whole
  rw [broker_after]
  cases turn with
  | call calls unopened unretired =>
    exact fits.accepts_call threaded next (moved ▸ calls) unopened unretired peer now
  | @reply q front back apart hears due unanswered endures =>
    have came : ⟨peer, agent, q⟩ ∈ heard ((start notifications).diary reader agent id before) :=
      mem_heard.mpr (by simp [hears])
    have mem := (List.mem_filter.mp (fits.heard.subset came)).1
    exact fits.accepts_reply threaded (endures.live mem rfl rfl) next apart rfl hears (moved ▸ due)
      unanswered now

def callMoves : List Move :=
  [.elsewhere (.request () ⟨.connect "buyer" 0, fun _ => rfl⟩),
    .elsewhere (.request () ⟨.connect "seller" 1, fun _ => rfl⟩),
    .elsewhere (.work 0 0), .elsewhere (.work 0 0),
    .say "buyer" 7 "seller" (.call .nothing), .forward "buyer", .elsewhere (.work 0 0),
    .collect 1, .hear "seller"]

def offerMoves : List Move :=
  callMoves ++ [.say "seller" 7 "buyer" (.propose (.text "ten")), .forward "seller"]

def readerOf (channel : Channel) : String := if channel = 0 then "buyer" else "seller"

theorem inTurn_offer : InTurn "seller" "buyer" 7 .propose
    ((start default).diary readerOf "seller" 7 callMoves) default
    ((start default).carried readerOf offerMoves) := by
  have hears : (start default).diary readerOf "seller" 7 callMoves =
      [] ++ .heard ⟨"buyer", "seller", ⟨1, 0, .call .nothing⟩⟩ :: [] := rfl
  have events : (start default).carried readerOf offerMoves =
      [.command 0 0 true (.connect "buyer" 0 0), .command 0 0 true (.connect "seller" 1 1),
        .command 0 0 false
          (.envelope "buyer" (.negotiation (Uuid.text 7) "seller" 1 0 (.call .nothing))),
        .takeFirst 1] := rfl
  rw [events]
  refine .reply (by decide) hears rfl (fun q mem => by cases mem) ⟨?_, ?_⟩
  · intro past later split begun
    match past with
    | [] => exact absurd rfl begun
    | [_] => cases split; exact absurd rfl begun
    | [_, _] => cases split; exact absurd rfl begun
    | [_, _, _] => cases split; decide +kernel
    | [_, _, _, _] => cases split; decide +kernel
    | _ :: _ :: _ :: _ :: _ :: _ => cases split
  · rintro past e later split ⟨a, asked, retires⟩
    match past with
    | [] => cases split; cases asked
    | [_] => cases split; cases asked
    | [_, _] =>
      cases split
      cases List.mem_singleton.mp asked
      exact retires
    | [_, _, _] => cases split; cases asked
    | _ :: _ :: _ :: _ :: _ => simp at split

theorem accepted_in_turn_offer :
    let c := (start default).after readerOf offerMoves
    InTurn "seller" "buyer" 7 .propose ((start default).diary readerOf "seller" 7 callMoves) default
      ((start default).carried readerOf offerMoves) ∧
    c.scheduler.queue.head? = some (.envelope "seller"
      (.negotiation (Uuid.text 7) "buyer" 1 1 (.propose (.text "ten")))) ∧
    (c.scheduler.broker.ledger.observe 0 "seller" "buyer" (Uuid.text 7)
      ⟨1, 1, .propose (.text "ten")⟩).isOk := by
  have others : (start default).others readerOf offerMoves =
      [.connect "buyer" 0 0, .connect "seller" 1 1] := rfl
  have fair : ∀ command ∈ (start default).others readerOf offerMoves, command.Fair readerOf := by
    intro command mem
    rw [others] at mem
    simp only [List.mem_cons, List.not_mem_nil, or_false] at mem
    rcases mem with rfl | rfl
    · exact ⟨rfl, fun _ _ _ same => by cases same; rfl, nofun⟩
    · exact ⟨rfl, fun _ _ _ same => by cases same; rfl, nofun⟩
  have alone : ∀ command ∈ (start default).others readerOf offerMoves,
      ∀ text p, command.posting? = some (text, p) → p.sender ≠ "seller" := by
    intro command mem text p posting
    rw [others] at mem
    simp only [List.mem_cons, List.not_mem_nil, or_false] at mem
    rcases mem with rfl | rfl <;> cases posting
  have first : ((start default).after readerOf offerMoves).scheduler.queue.head? =
      some (.envelope "seller"
        (.negotiation (Uuid.text 7) "buyer" 1 1 (.propose (.text "ten")))) := rfl
  exact ⟨inTurn_offer, first, @accepted_in_turn readerOf offerMoves "seller" 7 default "buyer"
    (.propose (.text "ten")) callMoves [.forward "seller"] rfl fair alone (by decide +kernel)
    ⟨1, 1, .propose (.text "ten")⟩ rfl rfl first inTurn_offer 0⟩

end Parley

end AgentBroker
