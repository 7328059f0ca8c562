import AgentBroker.Proofs.Broker.Arrivals
import AgentBroker.Proofs.Handshake.Gatekeeping

/-!
# Mail for a newcomer

As soon as the broker has admitted an agent others can write to it, while the gatekeeper has yet to
tell it so. What comes in the meantime waits in the mailbox; nothing comes before the admission.
-/

namespace AgentBroker

open AgentBroker.Frame Scheduler

namespace Timeline

theorem claims_requesting (t : Timeline) {id : String} {channel : Channel}
    (queue : ∀ c ∈ t.scheduler.queue, c.claims channel = false) :
    ((Broker.commands (t.scheduler.carried
      (t.requesting (Gate.admission id channel)))).filter (·.claims channel)).length ≤ 1 := by
  have waits : t.scheduler.queue.filter (·.claims channel) = [] :=
    List.filter_eq_nil_iff.mpr fun c mem => Bool.eq_false_iff.mp (queue c mem)
  have fewer := (commands_sublist t.scheduler
    (t.requesting (Gate.admission id channel))).filter (·.claims channel)
  rw [List.filter_append, waits, List.nil_append] at fewer
  refine fewer.length_le.trans ?_
  rw [requesting]
  split
  · exact Nat.zero_le _
  -- Behind the request itself only removals are brought.
  · have later (s : Scheduler) : ((s.brought
        ((t.asking (Gate.admission id channel)).settling ++
          [.collect t.scheduler.tickets])).map (·.2)).filter (·.claims channel) = [] := by
      refine List.filter_eq_nil_iff.mpr fun c mem => ?_
      obtain ⟨p, brought, rfl⟩ := List.mem_map.mp mem
      obtain ⟨a, acts, s, brings⟩ := exists_of_mem_brought brought
      rcases List.mem_append.mp acts with settles | collects
      · rcases mem_settling settles with rfl | ⟨maxIdle, rfl⟩
        · cases brings
        · cases List.mem_singleton.mp brings
          exact Bool.false_ne_true
      · cases List.mem_singleton.mp collects
        cases brings
    rw [List.cons_append, brought, Run.log, List.map_append, List.filter_append, List.length_append]
    have rest := congrArg List.length
      (later (t.scheduler.act (.request () (Gate.admission id channel))))
    have first := List.length_filter_le (·.claims channel)
      ((t.scheduler.brings (.request () (Gate.admission id channel))).map (·.2))
    exact (congrArg (_ + ·) rest).trans_le first

end Timeline

namespace Entrance

variable {e : Entrance} {max : Nat} {phrase id : String} {channel : Channel} {ticket : Ticket}
  {moves : List Move} {more : List Command} {m : Move}

def arrives (channel : Channel) (e : Entrance) (m : Move) : List Notice :=
  e.broker.arrived channel (e.scheduler.carried (e.dealings m))

def arrived (channel : Channel) (e : Entrance) (moves : List Move) : List Notice :=
  Run.log act (arrives channel) e moves

theorem inside_of_mem_dealings {a : Action Unit} (mem : a ∈ e.dealings .go)
    (event : { e : Broker.Event // e.command? = none }) : a ≠ .outside event := by
  rcases Gate.mem_dealings mem with ⟨id, -, rfl⟩ | ⟨id, cause, -, rfl⟩ | ⟨maxIdle, rfl⟩ |
    ⟨now, rfl⟩ | ⟨t, rfl⟩
  all_goals simp

theorem contents_act (others : ∀ a, m = .elsewhere a → a.Respects channel) :
    (e.act m).broker.mailboxes.contents channel =
      e.broker.mailboxes.contents channel ++ e.arrives channel m := by
  obtain ⟨f, moved⟩ := e.broker_act m
  rw [moved]
  refine Broker.contents_last fun event mem => kept_of_carried mem fun outside deals => ?_
  cases m with
  | elsewhere a =>
    cases List.mem_singleton.mp deals
    exact others _ rfl
  | go => exact absurd rfl (inside_of_mem_dealings deals outside)
  | _ => cases deals

/-- Nobody uses the mailbox or is about to. -/
structure Unclaimed (channel : Channel) (e : Entrance) : Prop where
  queue : ∀ c ∈ e.scheduler.queue, c.claims channel = false
  unused : e.broker.UsedOnlyBy channel fun _ => False

theorem Unclaimed.act (h : e.Unclaimed channel)
    (others : ∀ a, m = .elsewhere a → a.Respects channel) (silent : e.asks m = []) :
    (e.act m).Unclaimed channel ∧ e.arrives channel m = [] := by
  have brought (p : Unit × Command) (mem : p ∈ e.scheduler.brought (e.dealings m)) :
      p.2.claims channel = false := by
    obtain ⟨a, deals, s, brings⟩ := exists_of_mem_brought mem
    by_cases own : ∀ a, m ≠ .elsewhere a
    · rw [dealings_silent own silent] at deals
      cases deals
    · rw [not_forall_not] at own
      obtain ⟨a', rfl⟩ := own
      cases List.mem_singleton.mp deals
      exact (others a rfl).brings brings
  obtain ⟨queue, carried⟩ := all_of_brought h.queue brought
  obtain ⟨nothing, unused⟩ := Broker.arrived_eq_nil h.unused carried
  obtain ⟨f, moved⟩ := e.broker_act m
  refine ⟨⟨?_, ?_⟩, nothing⟩
  · rw [queue_act]
    exact queue
  · rw [moved]
    exact unused

/-- The mailbox is the newcomer's: nobody has put anything into it, and others leave it alone. -/
structure Reserved (channel : Channel) (e : Entrance) (moves : List Move) : Prop where
  unclaimed : e.Unclaimed channel
  empty : e.broker.mailboxes.contents channel = []
  others : ∀ a, .elsewhere a ∈ moves → a.Respects channel

theorem Unclaimed.run (h : e.Unclaimed channel)
    (others : ∀ a, .elsewhere a ∈ moves → a.Respects channel) (silent : e.asked moves = []) :
    (e.after moves).Unclaimed channel ∧ e.arrived channel moves = [] := by
  induction moves generalizing e with
  | nil => exact ⟨h, rfl⟩
  | cons m rest ih =>
    obtain ⟨first, later⟩ := List.append_eq_nil_iff.mp silent
    have now (a : Action Unit) (same : m = .elsewhere a) : a.Respects channel :=
      others a (same ▸ List.mem_cons_self)
    obtain ⟨next, nothing⟩ := h.act now first
    obtain ⟨last, nothing'⟩ := ih next (fun a mem => others a (List.mem_cons_of_mem _ mem)) later
    exact ⟨last, List.append_eq_nil_iff.mpr ⟨nothing, nothing'⟩⟩

theorem contents_after (others : ∀ a, .elsewhere a ∈ moves → a.Respects channel) :
    (e.after moves).broker.mailboxes.contents channel =
      e.broker.mailboxes.contents channel ++ e.arrived channel moves := by
  induction moves generalizing e with
  | nil => exact (List.append_nil _).symm
  | cons m rest ih =>
    have now (a : Action Unit) (same : m = .elsewhere a) : a.Respects channel :=
      others a (same ▸ List.mem_cons_self)
    have later := @ih (e.act m) fun a mem => others a (List.mem_cons_of_mem _ mem)
    rw [contents_act now, List.append_assoc] at later
    exact later

theorem Unclaimed.before_admission (h : e.Unclaimed channel) {before later : List Broker.Event}
    {admission : Broker.Event} (own : e.seat.state.channel = channel)
    (admits : e.Admits id channel ticket before admission later) :
    e.broker.arrived channel before = [] := by
  have once := @Timeline.claims_requesting e.seat.state.timeline id channel h.queue
  have deals : e.dealings .go = e.seat.state.timeline.requesting (Gate.admission id channel) := by
    rw [dealings, Gate.dealings, admits.stage, ← own]
  have carried := admits.carried
  rw [deals] at carried
  rw [show e.seat.state.timeline.scheduler = e.scheduler from rfl, carried, Broker.commands,
    List.filterMap_append, List.filterMap_cons_some admits.command, List.filter_append,
    List.filter_cons_of_pos (Command.claims_connect _ _ _), List.length_append,
    List.length_cons] at once
  refine (Broker.arrived_eq_nil h.unused fun c mem => ?_).1
  have none : (Broker.commands before).filter (·.claims channel) = [] :=
    List.eq_nil_of_length_eq_zero (by rw [Broker.commands]; omega)
  exact Bool.eq_false_iff.mpr (List.filter_eq_nil_iff.mp none c mem)

theorem exists_opening (follows : Follows max phrase channel [] [] [] [] e)
    (ticketed : e.scheduler.Ticketed) (reserved : e.Reserved channel moves)
    (asked : e.asked moves = .connect id channel ticket :: more)
    (admitted : e.heard moves = [.admitted true]) :
    ∃ past rest before admission later, moves = past ++ .go :: rest ∧
      (e.after past).Admits id channel ticket before admission later ∧
      e.arrived channel past = [] ∧ (e.after past).broker.arrived channel before = [] := by
  obtain ⟨past, rest, before, admission, later, split, silent, admits⟩ :=
    exists_admits follows ticketed asked admitted
  have others (a : Action Unit) (mem : .elsewhere a ∈ past) : a.Respects channel :=
    reserved.others a (split ▸ List.mem_append_left _ mem)
  obtain ⟨unclaimed, nothing⟩ := reserved.unclaimed.run others silent
  exact ⟨past, rest, before, admission, later, split, admits, nothing,
    unclaimed.before_admission (follows.run past).channel_eq admits⟩

end Entrance

end AgentBroker
