import AgentBroker.Proofs.Broker.Apart
import AgentBroker.Proofs.Scheduler.Settling

/-!
# Requests and their answers

The answer that is collected under a ticket is that of the request which was made with it, as long
as tickets are handed out only once. So an admission that is reported has taken place.
-/

namespace AgentBroker

namespace Scheduler

variable {π : Type} {s s' : Scheduler} {a : Action π} {put : List (π × Command)}
  {out : List Command} {events : List Broker.Event} {given : List (Ticket × Reply)}

theorem exists_of_mem_brought {actions : List (Action π)} {p : π × Command}
    (mem : p ∈ s.brought actions) : ∃ a ∈ actions, ∃ s : Scheduler, p ∈ s.brings a := by
  obtain ⟨before, a, later, split, brings⟩ := Run.exists_of_mem_log mem
  exact ⟨a, by simp [split], _, brings⟩

/-- If all that stands in the queue and all that comes to it is of one kind, then so is all that is
carried out and all that is left in the queue. -/
theorem all_of_brought {P : Command → Prop} {actions : List (Action π)}
    (queue : ∀ c ∈ s.queue, P c) (brought : ∀ p ∈ s.brought actions, P p.2) :
    (∀ c ∈ (s.after actions).queue, P c) ∧ ∀ c ∈ Broker.commands (s.carried actions), P c := by
  have all : ∀ c ∈ s.queue ++ (s.accepted actions).map (·.2), P c := by
    intro c mem
    rcases List.mem_append.mp mem with waits | came
    · exact queue c waits
    · obtain ⟨p, accepted, rfl⟩ := List.mem_map.mp came
      exact brought p ((s.accepted_prefix_brought actions).1.subset accepted)
  rw [← popped_queue] at all
  refine ⟨fun c mem => all c (List.mem_append_right _ mem), fun c mem => ?_⟩
  rw [commands_carried] at mem
  split at mem
  · exact all c (List.mem_append_left _ ((List.takeWhile_sublist _).subset mem))
  · cases mem

theorem commands_sublist (s : Scheduler) (actions : List (Action π)) :
    (Broker.commands (s.carried actions)).Sublist (s.queue ++ (s.brought actions).map (·.2)) := by
  have accepted := (s.accepted_prefix_brought actions).1.map (·.2)
  have popped : (s.popped actions).Sublist (s.queue ++ (s.accepted actions).map (·.2)) :=
    popped_queue s actions ▸ List.sublist_append_left _ _
  rw [commands_carried]
  split
  · exact (List.takeWhile_sublist _).trans (popped.trans (accepted.sublist.append_left _))
  · exact List.nil_sublist _

/-- The tickets of requests and answers have been handed out. -/
structure Ticketed (s : Scheduler) : Prop where
  queue : ∀ t ∈ ticketsOf s.queue, t < s.tickets
  replies : ∀ p ∈ s.replies, p.1 < s.tickets

theorem Ticketed.turn (h : s.Ticketed) (turn : Turn s a put out events given s') :
    s'.Ticketed := by
  obtain ⟨n, made, next⟩ := turn.tickets_eq
  have grows : s.tickets ≤ s'.tickets := next ▸ Nat.le_add_right _ _
  have all : ∀ t ∈ ticketsOf (out ++ s'.queue), t < s'.tickets := by
    intro t mem
    rw [turn.queue_eq, ticketsOf_append, made] at mem
    rcases List.mem_append.mp mem with waits | came
    · exact Nat.lt_of_lt_of_le (h.queue t waits) grows
    · rw [next]
      exact (List.mem_range'_1.mp came).2
  rw [ticketsOf_append] at all
  refine ⟨fun t mem => all t (List.mem_append_right _ mem), fun p mem => ?_⟩
  rcases List.mem_append.mp (turn.replies_sublist.subset mem) with old | new
  · exact Nat.lt_of_lt_of_le (h.replies p old) grows
  · have tickets := turn.given_tickets.subset (List.mem_map_of_mem new)
    exact all p.1 (List.mem_append_left _ tickets)

theorem Ticketed.after (h : s.Ticketed) (actions : List (Action π)) :
    (s.after actions).Ticketed :=
  Run.last_induction (fun s a h => h.turn (Scheduler.turn s a)) s h actions

theorem ticketed_start (notifications : NotificationSettings) : (start notifications).Ticketed where
  queue t mem := by cases mem
  replies p mem := by cases mem

theorem answered_of_reply (h : s.Ticketed) {actions : List (Action π)} {r : Reply}
    (mem : (s.tickets, r) ∈ (s.after actions).replies) :
    (s.tickets, r) ∈ s.answered actions := by
  rcases List.mem_append.mp ((replies_after_sublist s actions).subset mem) with old | new
  · exact absurd (h.replies _ old) (Nat.lt_irrefl _)
  · exact new

/-- An answer other than a refusal comes from a command that was carried out. -/
theorem carried_of_answered {actions : List (Action π)} {t : Ticket} {r : Reply}
    (mem : (t, r) ∈ s.answered actions) (carried : r ≠ .stopped) :
    ∃ before now elapsed awaited c later,
      s.carried actions = before ++ .command now elapsed awaited c :: later ∧
      c.ticket? = some t ∧
      ((Run.last Broker.after s.broker before).apply now elapsed awaited c).1 = some r := by
  obtain ⟨refusals, split, refuses, -⟩ := answered_split s actions
  rw [split] at mem
  rcases List.mem_append.mp mem with answer | refusal
  · obtain ⟨before, e, later, split, answers⟩ := Run.exists_of_mem_log answer
    cases e with
    | command now elapsed awaited c =>
      rw [Broker.replies] at answers
      obtain ⟨r', applied, replied⟩ := List.mem_flatMap.mp answers
      rw [Command.replyTo] at replied
      split at replied
      · obtain ⟨t', ticket, same⟩ := List.mem_map.mp replied
        cases same
        refine ⟨before, now, elapsed, awaited, c, later, split, ?_, ?_⟩
        · exact Option.mem_toList.mp ticket
        · exact Option.mem_toList.mp applied
      · cases replied
    | _ => cases answers
  · exact absurd (refuses _ refusal) carried

end Scheduler

theorem Broker.isConnected_of_admitted {b : Broker} {now elapsed : Nanos} {awaited : Bool}
    {agent : String} {channel : Channel} {ticket : Ticket}
    (h : (b.apply now elapsed awaited (.connect agent channel ticket)).1 =
      some (.admitted true)) : b.isConnected agent = false := by
  rw [apply, connect] at h
  cases connected : b.isConnected agent with
  | true => simp [connected] at h
  | false => rfl

namespace Timeline

open Scheduler

variable {t : Timeline} {r : Reply}
  {make : { make : Ticket → Command // ∀ n, (make n).ticket? = some n }}

theorem reply_of_request (isOpen : t.scheduler.isStopped = false) (reply : (t.request make.1).1 = r)
    (carried : r ≠ .stopped) :
    (t.scheduler.tickets, r) ∈
      (t.scheduler.after (.request () make :: (t.asking make).settling)).replies := by
  have settled := (t.asking make).settle_eq
  change _ ∈ ((t.asking make).scheduler.after (t.asking make).settling).replies
  rw [← settled]
  rw [request_open isOpen] at reply
  cases found : (t.asking make).settle.scheduler.collect? t.scheduler.tickets with
  | none =>
    rw [found] at reply
    exact absurd reply.symm carried
  | some collected =>
    rw [found] at reply
    rw [collect?, Option.map_eq_some_iff] at found
    obtain ⟨r', looked, rfl⟩ := found
    cases reply
    obtain ⟨front, back, split, -⟩ := List.lookup_eq_some_iff.mp looked
    rw [split]
    exact List.mem_append_right _ List.mem_cons_self

theorem eq_of_ticket (ticketed : t.scheduler.Ticketed) {c : Command}
    (mem : c ∈ Broker.commands
      (t.scheduler.carried (.request () make :: (t.asking make).settling)))
    (ticket : c.ticket? = some t.scheduler.tickets) : c = make.1 t.scheduler.tickets := by
  have queue (c : Command) (waits : c ∈ t.scheduler.queue)
      (ticket : c.ticket? = some t.scheduler.tickets) : c = make.1 t.scheduler.tickets := by
    have old := ticketed.queue _ (List.mem_filterMap.mpr ⟨c, waits, ticket⟩)
    exact absurd old (Nat.lt_irrefl _)
  have brought (p : Unit × Command)
      (came : p ∈ t.scheduler.brought (.request () make :: (t.asking make).settling))
      (ticket : p.2.ticket? = some t.scheduler.tickets) : p.2 = make.1 t.scheduler.tickets := by
    obtain ⟨a, acts, s, brings⟩ := exists_of_mem_brought came
    rcases List.mem_cons.mp acts with rfl | settles
    · cases List.mem_singleton.mp brings
      have same : s.tickets = t.scheduler.tickets :=
        Option.some.inj ((make.2 s.tickets).symm.trans ticket)
      rw [same]
    · rcases mem_settling settles with rfl | ⟨maxIdle, rfl⟩
      · cases brings
      · cases List.mem_singleton.mp brings
        cases ticket
  exact (all_of_brought queue brought).2 c mem ticket

theorem connected_of_admitted (ticketed : t.scheduler.Ticketed) {id : String} {channel : Channel}
    (admitted : (t.request (.connect id channel)).1 = .admitted true) :
    ∃ before now elapsed awaited later,
      t.scheduler.carried (t.requesting ⟨.connect id channel, fun _ => rfl⟩) =
        before ++ .command now elapsed awaited (.connect id channel t.scheduler.tickets) ::
          later ∧
      (Run.last Broker.after t.broker before).isConnected id = false := by
  let make : { make : Ticket → Command // ∀ n, (make n).ticket? = some n } :=
    ⟨.connect id channel, fun _ => rfl⟩
  have isOpen : t.scheduler.isStopped = false := by
    refine Bool.eq_false_iff.mpr fun stopped => ?_
    rw [show Command.connect id channel = make.1 from rfl, request_stopped stopped] at admitted
    cases admitted
  have waits : (t.scheduler.tickets, .admitted true) ∈
      (t.scheduler.after (.request () make :: (t.asking make).settling)).replies :=
    reply_of_request isOpen admitted nofun
  have answered := answered_of_reply ticketed waits
  obtain ⟨before, now, elapsed, awaited, c, later, split, ticket, applied⟩ :=
    carried_of_answered answered nofun
  have mem : c ∈ Broker.commands
      (t.scheduler.carried (.request () make :: (t.asking make).settling)) := by
    rw [split, Broker.commands, List.filterMap_append]
    exact List.mem_append_right _ List.mem_cons_self
  cases eq_of_ticket ticketed mem ticket
  refine ⟨before, now, elapsed, awaited, later, ?_, Broker.isConnected_of_admitted applied⟩
  have whole : t.requesting make =
      .request () make :: (t.asking make).settling ++ [.collect t.scheduler.tickets] :=
    if_neg (Bool.eq_false_iff.mp isOpen)
  have collected (s : Scheduler) :
      s.carried [(.collect t.scheduler.tickets : Action Unit)] = [] := rfl
  rw [whole, Scheduler.carried, Run.log_append]
  exact (congrArg (_ ++ ·) (collected _)).trans ((List.append_nil _).trans split)

end Timeline

end AgentBroker
