import AgentBroker.Agent.Local
import AgentBroker.Proofs.Broker.Sessions
import AgentBroker.Proofs.Handshake.Withdrawal
import Mathlib.Logic.Function.Basic

/-!
# Agents in the process, together

Several agents use one scheduler, some of them perhaps with the same key. They ask for admission,
hear the answer, send and leave, in any order, and the worker goes on between all that. An agent
leaves by its key: it ends the session of that key, whoever has asked for it.
-/

namespace AgentBroker

open Scheduler

namespace LocalAccess

variable {a : LocalAccess} {t : Timeline} {channel : Channel}

def ask (a : LocalAccess) (channel : Channel) (t : Timeline) : Except Failure Ticket × Timeline :=
  match validateAgentId a.publicKey with
  | .error p => (.error (.config p), t)
  | .ok _ =>
    match t.scheduler.request? (.connect a.publicKey channel) with
    | some (ticket, scheduler) => (.ok ticket, { t with scheduler })
    | none => (.error .stopped, t)

/-- Hears the answer. The mailbox of an earlier admission that nobody has begun to read is given
up. -/
def hear (a : LocalAccess) (channel : Channel) (r : Reply) (t : Timeline) :
    Except Failure Unit × LocalAccess × Timeline :=
  match r with
  | .admitted true =>
    let close (m : Mailboxes) := match a.inbox? with
      | some old => m.close old
      | none => m
    (.ok (), { a with inbox? := some channel }, t.mapMailboxes close)
  | .admitted false => (.error (.handshake (.alreadyConnected a.publicKey)), a, t)
  | _ => (.error .stopped, a, t)

theorem handshake_eq :
    a.handshake channel t =
      match a.ask channel t with
      | (.error f, t) => (.error f, a, t)
      | (.ok ticket, t) =>
        match t.settle.scheduler.collect? ticket with
        | some (r, scheduler) => a.hear channel r { t.settle with scheduler }
        | none => a.hear channel .stopped t.settle := by
  rw [handshake, ask]
  cases validateAgentId a.publicKey with
  | error p => rfl
  | ok u =>
    dsimp only
    rw [Timeline.request]
    cases t.scheduler.request? (.connect a.publicKey channel) with
    | none => rfl
    | some asked =>
      dsimp only
      cases ({ t with scheduler := asked.2 } : Timeline).settle.scheduler.collect? asked.1 with
      | none => rfl
      | some collected =>
        obtain ⟨r, scheduler⟩ := collected
        rcases r with (_ | _) | _ | _ | _ | _ | _ <;> rfl

end LocalAccess

def Command.isLocal (key : String) : Command → Bool
  | .connect id _ _ | .envelope id _ | .disconnect id => id == key
  | _ => false

/-- Agents by their numbers around one scheduler. -/
structure Company where
  timeline : Timeline
  access : Nat → LocalAccess
  /-- The mailboxes and the tickets of the handshakes whose answer has not been heard. -/
  asking : Nat → Option (Channel × Ticket)
  /-- How many mailboxes have been made. -/
  channels : Nat

namespace Company

def start (s : Settings) (keys : Nat → String) : Company :=
  ⟨.start s, fun p => .start (keys p), fun _ => none, 0⟩

inductive Move where
  /-- An agent begins a handshake, with a new mailbox. -/
  | ask (p : Nat)
  /-- An agent hears the answer, if there is one. -/
  | hear (p : Nat)
  | send (p : Nat) (e : Envelope)
  | stop (p : Nat)
  | work (now elapsed : Nanos)

def scheduler (c : Company) : Scheduler := c.timeline.scheduler

def broker (c : Company) : Broker := c.scheduler.broker

def act (c : Company) : Move → Company
  | .ask p =>
    match (c.access p).ask c.channels c.timeline with
    | (.ok ticket, timeline) =>
      { c with
        timeline
        asking := Function.update c.asking p (some (c.channels, ticket))
        channels := c.channels + 1 }
    | (.error _, timeline) => { c with timeline, channels := c.channels + 1 }
  | .hear p =>
    match c.asking p with
    | none => c
    | some (channel, ticket) =>
      match c.scheduler.collect? ticket with
      | none => c
      | some (r, scheduler) =>
        match (c.access p).hear channel r { c.timeline with scheduler } with
        | (_, a, timeline) =>
          { c with
            timeline
            access := Function.update c.access p a
            asking := Function.update c.asking p none }
  | .send p e =>
    match (c.access p).send e c.timeline with
    | (_, a, timeline) => { c with timeline, access := Function.update c.access p a }
  | .stop p => { c with timeline := ((c.access p).stop c.timeline).2 }
  | .work now elapsed => { c with timeline.scheduler := c.scheduler.step now elapsed }

def after (c : Company) (moves : List Move) : Company := Run.last act c moves

def dealings (c : Company) : Move → List (Action Nat)
  | .ask p =>
    if (validateAgentId (c.access p).publicKey).isOk then
      [.request p (Gate.admission (c.access p).publicKey c.channels)]
    else []
  | .hear p =>
    match c.asking p with
    | none => []
    | some (_, ticket) =>
      match c.scheduler.collect? ticket with
      | some (.admitted true, _) =>
        .collect ticket :: (c.access p).inbox?.toList.map fun old => .outside ⟨.close old, rfl⟩
      | some _ => [.collect ticket]
      | none => []
  | .send p e =>
    [.post p ⟨.envelope (c.access p).publicKey ((c.access p).numbering.stamp e).1, rfl⟩]
  | .stop p => [.post p (Gate.dismissal (c.access p).publicKey)]
  | .work now elapsed => [.work now elapsed]

def actions (c : Company) (moves : List Move) : List (Action Nat) := Run.log act dealings c moves

def brought (c : Company) (moves : List Move) : List (Nat × Command) :=
  c.scheduler.brought (c.actions moves)

def carried (c : Company) (moves : List Move) : List Broker.Event :=
  c.scheduler.carried (c.actions moves)

variable {c : Company} {moves : List Move}

theorem scheduler_submit (command : { c : Command // c.ticket? = none }) (p : Nat) (t : Timeline) :
    (LocalAccess.submit command.1 t).2.scheduler = t.scheduler.after [.post p command] := by
  change _ = t.scheduler.enqueue command.1
  rw [LocalAccess.submit, Timeline.enqueue, Scheduler.enqueue]
  cases t.scheduler.enqueue? command.1 with
  | none => rfl
  | some s => rfl

theorem scheduler_ask (p : Nat) :
    (c.act (.ask p)).scheduler = c.scheduler.after (c.dealings (.ask p)) := by
  rw [act, dealings, LocalAccess.ask]
  cases validateAgentId (c.access p).publicKey with
  | error e => rfl
  | ok u =>
    have asks : c.scheduler.after
        [.request p (Gate.admission (c.access p).publicKey c.channels)] =
        ((c.timeline.scheduler.request? (.connect (c.access p).publicKey c.channels)).map
          (·.2)).getD c.timeline.scheduler := rfl
    have valid : (Except.ok u : Except ConfigProblem Unit).isOk := rfl
    rw [if_pos valid, asks]
    dsimp only
    rw [scheduler]
    cases c.timeline.scheduler.request? (.connect (c.access p).publicKey c.channels) with
    | none => rfl
    | some asked => rfl

theorem scheduler_hear (p : Nat) :
    (c.act (.hear p)).scheduler = c.scheduler.after (c.dealings (.hear p)) := by
  rw [act, dealings]
  cases c.asking p with
  | none => rfl
  | some asked =>
    obtain ⟨channel, ticket⟩ := asked
    dsimp only
    cases collected : c.scheduler.collect? ticket with
    | none => rfl
    | some found =>
      obtain ⟨r, s⟩ := found
      have collects (more : List (Action Nat)) :
          c.scheduler.after (.collect ticket :: more) = s.after more := by
        rw [Scheduler.after, Run.last_cons, Scheduler.act, collected]
        rfl
      rcases r with (_ | _) | _ | _ | _ | _ | _
      case admitted.true =>
        dsimp only
        rw [collects]
        cases inbox : (c.access p).inbox? with
        | none => simp only [LocalAccess.hear, inbox]; rfl
        | some old => simp only [LocalAccess.hear, inbox]; rfl
      all_goals exact (collects []).symm

theorem scheduler_act (c : Company) (m : Move) :
    (c.act m).scheduler = c.scheduler.after (c.dealings m) := by
  cases m with
  | ask p => exact scheduler_ask p
  | hear p => exact scheduler_hear p
  | send p e => exact scheduler_submit ⟨.envelope _ _, rfl⟩ p c.timeline
  | stop p => exact scheduler_submit (Gate.dismissal _) p c.timeline
  | work now elapsed => rfl

theorem publicKey_act (c : Company) (m : Move) (p : Nat) :
    ((c.act m).access p).publicKey = (c.access p).publicKey := by
  have updated {q : Nat} {a : LocalAccess} (same : a.publicKey = (c.access q).publicKey) :
      (Function.update c.access q a p).publicKey = (c.access p).publicKey := by
    by_cases other : p = q
    · subst other
      rw [Function.update_self, same]
    · rw [Function.update_of_ne other]
  cases m with
  | ask q =>
    rw [act]
    split <;> rfl
  | hear q =>
    rw [act]
    split
    · rfl
    · split
      · rfl
      next channel ticket _ r s _ =>
        refine updated ?_
        rcases r with (_ | _) | _ | _ | _ | _ | _ <;> rfl
  | send q e => exact updated rfl
  | _ => rfl

variable {s : Settings} {keys : Nat → String}

theorem publicKey_after (moves : List Move) (p : Nat) :
    (((start s keys).after moves).access p).publicKey = keys p :=
  Run.last_induction (P := fun c => (c.access p).publicKey = keys p)
    (fun c m same => (c.publicKey_act m p).trans same) (start s keys) rfl moves

theorem scheduler_after (c : Company) (moves : List Move) :
    (c.after moves).scheduler = c.scheduler.after (c.actions moves) := by
  induction moves generalizing c with
  | nil => rfl
  | cons m rest ih =>
    have later := ih (c.act m)
    rw [scheduler_act, ← Scheduler.after_append] at later
    exact later

theorem broker_after (c : Company) (moves : List Move) :
    (c.after moves).broker = Run.last Broker.after c.broker (c.carried moves) := by
  rw [broker, scheduler_after, Scheduler.broker_after]
  rfl

theorem brought_concat (c : Company) (moves : List Move) (m : Move) :
    c.brought (moves ++ [m]) =
      c.brought moves ++ (c.after moves).scheduler.brought ((c.after moves).dealings m) := by
  rw [brought, actions, Run.log_concat, Scheduler.brought, Run.log_append, scheduler_after]
  rfl

theorem mem_brought_of_carried {command : Command}
    (mem : command ∈ Broker.commands ((start s keys).carried moves)) :
    ∃ q, (q, command) ∈ (start s keys).brought moves :=
  have empty : ∀ c ∈ (start s keys).scheduler.queue,
      ∃ q, (q, c) ∈ (start s keys).brought moves := fun c waits => by cases waits
  (all_of_brought empty fun p came => ⟨p.1, came⟩).2 command mem

/-- Every agent brings commands with its own key, and every handshake brings a new mailbox. -/
structure Brings (keys : Nat → String) (channels : Nat) (brought : List (Nat × Command)) :
    Prop where
  own : ∀ p ∈ brought, p.2.isLocal (keys p.1)
  older : ∀ q id j ticket, (q, .connect id j ticket) ∈ brought → j < channels
  single : ∀ q q' id id' j ticket ticket', (q, .connect id j ticket) ∈ brought →
    (q', .connect id' j ticket') ∈ brought → q' = q

theorem mem_brought_dealings {m : Move} {x : Nat × Command}
    (mem : x ∈ c.scheduler.brought (c.dealings m)) :
    x.2.isLocal (c.access x.1).publicKey ∧
      ∀ id j ticket, x.2 = .connect id j ticket → m = .ask x.1 ∧ j = c.channels := by
  have local_ (id : String) : (id == id) = true := beq_self_eq_true id
  cases m with
  | ask p =>
    rw [dealings] at mem
    split at mem
    · cases List.mem_singleton.mp mem
      refine ⟨local_ _, fun id j ticket same => ?_⟩
      cases same
      exact ⟨rfl, rfl⟩
    · cases mem
  | hear p =>
    obtain ⟨a, deals, s, brings⟩ := exists_of_mem_brought mem
    have silent : ∀ a ∈ c.dealings (.hear p), ∀ s : Scheduler, s.brings a = [] := by
      intro a deals s
      rw [dealings] at deals
      split at deals
      · cases deals
      · split at deals
        · rcases List.mem_cons.mp deals with rfl | closes
          · rfl
          · obtain ⟨old, -, rfl⟩ := List.mem_map.mp closes
            rfl
        · cases List.mem_singleton.mp deals
          rfl
        · cases deals
    rw [silent a deals s] at brings
    cases brings
  | send p e =>
    cases List.mem_singleton.mp mem
    exact ⟨local_ _, nofun⟩
  | stop p =>
    cases List.mem_singleton.mp mem
    exact ⟨local_ _, nofun⟩
  | work now elapsed => cases mem

theorem channels_ask (c : Company) (p : Nat) : (c.act (.ask p)).channels = c.channels + 1 := by
  rw [act]
  split <;> rfl

theorem channels_act (c : Company) (m : Move) : c.channels ≤ (c.act m).channels := by
  cases m with
  | ask p =>
    rw [channels_ask]
    exact Nat.le_succ _
  | hear p =>
    rw [act]
    split
    · exact Nat.le_refl _
    · split <;> exact Nat.le_refl _
  | _ => exact Nat.le_refl _

theorem Brings.act {brought : List (Nat × Command)} (h : Brings keys c.channels brought)
    (named : ∀ p, (c.access p).publicKey = keys p) (m : Move) :
    Brings keys (c.act m).channels (brought ++ c.scheduler.brought (c.dealings m)) where
  own x mem := by
    rcases List.mem_append.mp mem with old | new
    · exact h.own x old
    · rw [← named x.1]
      exact (mem_brought_dealings new).1
  older q id j ticket mem := by
    rcases List.mem_append.mp mem with old | new
    · exact Nat.lt_of_lt_of_le (h.older q id j ticket old) (c.channels_act m)
    · obtain ⟨rfl, rfl⟩ := (mem_brought_dealings new).2 id j ticket rfl
      rw [channels_ask]
      exact Nat.lt_succ_self _
  -- A new mailbox is none of the old ones, and only the move brings it.
  single q q' id id' j ticket ticket' mem mem' := by
    rcases List.mem_append.mp mem with old | new
    · rcases List.mem_append.mp mem' with old' | new'
      · exact h.single q q' id id' j ticket ticket' old old'
      · obtain ⟨-, rfl⟩ := (mem_brought_dealings new').2 id' j ticket' rfl
        exact absurd (h.older q id _ ticket old) (Nat.lt_irrefl _)
    · obtain ⟨asks, rfl⟩ := (mem_brought_dealings new).2 id j ticket rfl
      rcases List.mem_append.mp mem' with old' | new'
      · exact absurd (h.older q' id' _ ticket' old') (Nat.lt_irrefl _)
      · obtain ⟨asks', -⟩ := (mem_brought_dealings new').2 id' _ ticket' rfl
        rw [asks] at asks'
        cases asks'
        rfl

theorem brings_start (s : Settings) (keys : Nat → String) (moves : List Move) :
    Brings keys ((start s keys).after moves).channels ((start s keys).brought moves) := by
  induction moves using List.reverseRecOn with
  | nil => exact ⟨nofun, nofun, nofun⟩
  | append_singleton moves m ih =>
    rw [brought_concat, after, Run.last_concat]
    exact ih.act (publicKey_after moves) m

variable {c : Company} {moves : List Move} {s : Settings} {keys : Nat → String}

/-- The session with a mailbox has come from a handshake of this agent, of no other one, and has
lasted since. -/
structure HeldBy (c : Company) (moves : List Move) (q : Nat) (id : String) (j : Channel) :
    Prop where
  lasts : ∃ ticket, (q, .connect id j ticket) ∈ c.brought moves ∧
    Broker.Lasts id j ticket c.broker (c.carried moves)
  only : ∀ other id' ticket, (other, .connect id' j ticket) ∈ c.brought moves → other = q

theorem Brings.key_eq {channels : Nat} {brought : List (Nat × Command)}
    (h : Brings keys channels brought) {q : Nat} {id : String} {j : Channel} {ticket : Ticket}
    (mem : (q, .connect id j ticket) ∈ brought) : keys q = id :=
  (eq_of_beq (h.own _ mem)).symm

/-- What an agent that leaves brings about, once the worker comes to it. -/
structure Stopping (s : Settings) (keys : Nat → String) (past rest : List Move) (p : Nat)
    (b' : Broker) : Prop where
  queued : ((start s keys).after (past ++ [.stop p])).scheduler =
    ((start s keys).after past).scheduler.enqueue (.disconnect (keys p))
  removes : ((start s keys).after (past ++ .stop p :: rest)).broker.Removes (keys p) b'
  idle : ((start s keys).after (past ++ .stop p :: rest)).broker.session? (keys p) = none →
    b' = ((start s keys).after (past ++ .stop p :: rest)).broker
  holder : ∀ j, ((start s keys).after (past ++ .stop p :: rest)).broker.session? (keys p) = some j →
    ∃ q, keys q = keys p ∧ (start s keys).HeldBy (past ++ .stop p :: rest) q (keys p) j
  own : (∀ q, keys q = keys p → q = p) →
    ∀ j, ((start s keys).after (past ++ .stop p :: rest)).broker.session? (keys p) = some j →
      (start s keys).HeldBy (past ++ .stop p :: rest) p (keys p) j

theorem exists_heldBy {id : String} {j : Channel}
    (session : ((start s keys).after moves).broker.session? id = some j) :
    ∃ q, keys q = id ∧ (start s keys).HeldBy moves q id j := by
  rw [broker_after] at session
  have fresh : (start s keys).broker.session? id ≠ some j := by
    simp [broker, scheduler, start, Timeline.start, Scheduler.start, Broker.start, Broker.session?]
  obtain ⟨ticket, lasts⟩ := Broker.exists_lasts fresh session
  have mem : .connect id j ticket ∈ Broker.commands ((start s keys).carried moves) := by
    obtain ⟨before, now, elapsed, later, split, -⟩ := lasts.since
    rw [split, Broker.commands, List.filterMap_append]
    exact List.mem_append_right _ List.mem_cons_self
  obtain ⟨q, came⟩ := mem_brought_of_carried mem
  have brings := brings_start s keys moves
  exact ⟨q, brings.key_eq came, ⟨ticket, came, lasts⟩,
    fun other id' ticket' mem' => brings.single _ _ _ _ _ _ _ came mem'⟩

/-- An agent that leaves ends the session of its key, and touches nothing of other keys. If agents
share a key this is the session of whoever of them has been admitted last; an agent that shares its
key with nobody ends no session but that of its own handshake. -/
theorem stopping (s : Settings) (keys : Nat → String) {past rest : List Move} {p : Nat} :
    let moves := past ++ .stop p :: rest
    ((start s keys).after moves).scheduler.phase = .running →
    ((start s keys).after moves).scheduler.queue.head? = some (.disconnect (keys p)) →
    ∀ now elapsed, Stopping s keys past rest p
      ((start s keys).after (moves ++ [.work now elapsed])).broker := by
  intro moves running first now elapsed
  have next : ((start s keys).after (moves ++ [.work now elapsed])).broker =
      (((start s keys).after moves).broker.disconnect (keys p)).2 := by
    rw [after, Run.last_concat]
    exact Scheduler.broker_step_disconnect running first now elapsed
  rw [next]
  exact {
    queued := by
      rw [after, Run.last_concat, scheduler_act, dealings, ← after, publicKey_after]
      rfl
    removes := Broker.removes_disconnect _ _
    idle := fun absent => by
      rw [Broker.disconnect, if_neg (Bool.eq_false_iff.mp (Broker.session?_eq_none_iff.mp absent))]
    holder := fun j session => exists_heldBy session
    own := fun alone j session => by
      obtain ⟨q, same, held⟩ := exists_heldBy session
      exact alone q same ▸ held }

/-- Two agents with one key. The first is admitted and registers a service; the second is refused,
and leaves. -/
def namesakes : List Move :=
  [.ask 0, .work 0 0, .hear 0, .send 0 lateService, .work 0 0, .ask 1, .work 0 0, .hear 1, .stop 1]

/-- Then the session of the first ends, with its service. -/
theorem refused_namesake_ends_session :
    let c := (start default fun _ => "A").after namesakes
    (c.access 0).inbox? = some 0 ∧ (c.access 1).inbox? = none ∧
      c.broker.metrics.sessions.rejected = 1 ∧
      c.broker.session? "A" = some 0 ∧ c.broker.stats.services = 1 ∧
      (c.act (.work 0 0)).broker.session? "A" = none ∧
      (c.act (.work 0 0)).broker.stats.services = 0 := by
  decide +kernel

theorem stopping_namesakes :
    let c := (start default fun _ => "A").after namesakes
    c.scheduler.phase = .running ∧ c.scheduler.queue.head? = some (.disconnect "A") ∧
      Stopping default (fun _ => "A") namesakes.dropLast [] 1
        ((start default fun _ => "A").after (namesakes ++ [.work 0 0])).broker := by
  intro c
  have running : c.scheduler.phase = .running := by decide +kernel
  have first : c.scheduler.queue.head? = some (.disconnect "A") := by
    have waits : c.scheduler.queue.head?.any (fun c => c.passes "A" && c.ticket?.isNone) := by
      decide +kernel
    obtain ⟨command, head, own⟩ := (Option.any_eq_true _ _).mp waits
    rw [Bool.and_eq_true, Option.isNone_iff_eq_none] at own
    rw [head, Command.eq_disconnect own.1 own.2]
  exact ⟨running, first, @stopping default (fun _ => "A") namesakes.dropLast [] 1 running first 0 0⟩

end Company

end AgentBroker
