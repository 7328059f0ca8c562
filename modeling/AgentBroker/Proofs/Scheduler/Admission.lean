import AgentBroker.Proofs.Scheduler.Requests

/-!
# When an admission is granted

The scheduler first works off what stands in the queue. It grants the admission if it is still at
work then, and has no session of the agent.
-/

namespace AgentBroker

namespace Scheduler

variable {π : Type} {s : Scheduler}

/-- Nobody abandons a request that has not been made. -/
def Action.IsMade (s : Scheduler) : Action π → Prop
  | .abandon t => t < s.tickets
  | _ => True

instance (s : Scheduler) (a : Action π) : Decidable (a.IsMade s) :=
  match a with
  | .abandon t => inferInstanceAs (Decidable (t < s.tickets))
  | .post .. | .request .. | .collect _ | .work .. | .outside _ => .isTrue trivial

/-- All tickets that the scheduler knows of have been handed out. -/
structure Numbered (s : Scheduler) : Prop where
  ticketed : s.Ticketed
  abandoned : ∀ t ∈ s.abandoned, t < s.tickets

theorem numbered_start (notifications : NotificationSettings) : (start notifications).Numbered where
  ticketed := ticketed_start notifications
  abandoned _ mem := absurd mem Std.ExtTreeSet.not_mem_empty

theorem Numbered.act (h : s.Numbered) {a : Action π} (made : a.IsMade s) : (s.act a).Numbered where
  ticketed := h.ticketed.turn (turn s a)
  abandoned t mem := by
    obtain ⟨n, -, next⟩ := (turn s a).tickets_eq
    rw [next]
    rcases ((turn s a).abandoned_iff t).mp mem with old | rfl
    · exact Nat.lt_add_right n (h.abandoned t old)
    · exact Nat.lt_add_right n made

theorem Numbered.after (h : s.Numbered) {actions : List (Action π)}
    (made : ∀ t, .abandon t ∉ actions) : (s.after actions).Numbered := by
  induction actions generalizing s with
  | nil => exact h
  | cons a rest ih =>
    refine ih (h.act ?_) fun t mem => made t (List.mem_cons_of_mem _ mem)
    cases a with
    | abandon t => exact absurd List.mem_cons_self (made t)
    | _ => trivial

theorem after_idle (running : s.phase = .running) (empty : s.queue = []) (n : Nat) (now : Nanos) :
    s.after (List.replicate n (.work now 0 : Action π)) = s := by
  induction n with
  | zero => rfl
  | succ n ih =>
    rw [List.replicate_succ, Scheduler.after, Run.last_cons]
    have still : s.act (.work now 0 : Action π) = s := by
      simp only [act, step, running, empty]
    rw [still]
    exact ih

theorem after_queue (running : s.phase = .running) (goes : .stop ∉ s.queue) (now : Nanos)
    (more : List Command) (tickets : Nat) :
    { s with queue := s.queue ++ more, tickets }.after
        (List.replicate s.queue.length (.work now 0 : Action π)) =
      { s.after (List.replicate s.queue.length (.work now 0 : Action π)) with
        queue := more, tickets } := by
  generalize queue : s.queue = q at goes
  induction q generalizing s with
  | nil => rfl
  | cons c rest ih =>
    obtain ⟨goes, later⟩ := not_or.mp (mt List.mem_cons.mpr goes)
    have own := step_cons running queue (Ne.symm goes) now 0
    have next := @ih (s.step now 0) (by rw [own]; exact running) (by rw [own]) later
    have longer : { s with queue := c :: rest ++ more, tickets }.step now 0 =
        { s.step now 0 with queue := rest ++ more, tickets } := by
      rw [own]
      exact @step_cons { s with queue := c :: rest ++ more, tickets } c (rest ++ more) running rfl
        (Ne.symm goes) now 0
    change ({ s with queue := c :: rest ++ more, tickets }.step now 0).after _ =
      { (s.step now 0).after _ with queue := more, tickets }
    rw [longer]
    exact next

theorem popped_emptying (s : Scheduler) (now : Nanos) :
    s.popped (s.emptying now : List (Action Unit)) = s.queue := by
  have popped := popped_queue s (s.emptying now : List (Action Unit))
  rwa [queue_emptying, emptying, accepted_works, List.map_nil, List.append_nil,
    List.append_nil] at popped

theorem running_settle_iff (s : Scheduler) (now : Nanos) :
    (s.settle now).phase = .running ↔ s.phase = .running ∧ .stop ∉ s.queue := by
  have running := running_after_iff s (s.emptying now : List (Action Unit))
  rwa [← settle_eq, popped_emptying] at running

theorem settle_queue (running : s.phase = .running) (goes : .stop ∉ s.queue) (now : Nanos) :
    s.settle now = s.after (List.replicate s.queue.length (.work now 0 : Action π)) := by
  have worked := @after_queue π s running goes now [] s.tickets
  rw [List.append_nil] at worked
  have empty := congrArg Scheduler.queue worked
  have still : (s.after (List.replicate s.queue.length (.work now 0 : Action π))).phase =
      .running := by
    refine (running_after_iff s _).mpr ⟨running, fun mem => goes ?_⟩
    have popped := popped_queue s (List.replicate s.queue.length (.work now 0 : Action π))
    rw [accepted_works, List.map_nil, List.append_nil] at popped
    exact popped ▸ List.mem_append_left _ mem
  rw [@settle_eq π, emptying, ← List.replicate_append_replicate, Scheduler.after_append]
  exact after_idle still empty 2 now

theorem tickets_settle (s : Scheduler) (now : Nanos) : (s.settle now).tickets = s.tickets := by
  obtain ⟨n, taken, tickets⟩ := accepted_tickets s (s.emptying now : List (Action Unit))
  rw [emptying, accepted_works] at taken
  have none : n = 0 := by
    have length := congrArg List.length taken
    simpa [ticketsOf] using length.symm
  rw [@settle_eq Unit, tickets, none, Nat.add_zero]

theorem ticketed_settle (ticketed : s.Ticketed) (now : Nanos) : (s.settle now).Ticketed := by
  rw [@settle_eq Unit]
  exact ticketed.after _

/-- A request behind a queue is carried out when the queue is worked off. -/
theorem settle_request (numbered : s.Numbered) {now : Nanos}
    (running : (s.settle now).phase = .running) {c : Command}
    (ticket : c.ticket? = some s.tickets) (tickets : Nat) :
    { s with queue := s.queue ++ [c], tickets }.settle now = { s.settle now with
      broker := (s.settle now).broker.after (.command now 0 true c)
      queue := []
      replies := (s.settle now).replies ++ (s.settle now).broker.replies (.command now 0 true c)
      tickets } := by
  obtain ⟨works, goes⟩ := (running_settle_iff s now).mp running
  have stays : c ≠ .stop := by
    rintro rfl
    cases ticket
  have awaited : (s.settle now).awaits c = true := by
    refine awaits_of_not_abandoned ticket fun mem => ?_
    rw [@settle_eq Unit, abandoned_after_iff] at mem
    rcases mem with old | work
    · exact absurd (numbered.abandoned _ old) (Nat.lt_irrefl _)
    · cases List.eq_of_mem_replicate work
  have front := @after_queue Unit s works goes now [c] tickets
  rw [← settle_queue works goes now] at front
  have next := @step_cons { s.settle now with queue := [c], tickets } c [] running rfl stays now 0
  have three : (s.queue ++ [c]).length + 2 = s.queue.length + 1 + 2 := by
    rw [List.length_append, List.length_singleton]
  rw [@settle_eq Unit, emptying, three, ← List.replicate_append_replicate,
    ← List.replicate_append_replicate, Scheduler.after_append, Scheduler.after_append, front]
  have worked : { s.settle now with queue := [c], tickets }.after
      (List.replicate 1 (.work now 0 : Action Unit)) =
      { s.settle now with queue := [c], tickets }.step now 0 := rfl
  have same : { s.settle now with queue := [c], tickets }.awaits c = true := awaited
  rw [worked, next, same]
  apply after_idle
  · exact running
  · rfl

theorem Turn.replies_isPrefix {a : Action π} {put : List (π × Command)} {out : List Command}
    {events : List Broker.Event} {given : List (Ticket × Reply)} {s' : Scheduler}
    (turn : Turn s a put out events given s') (keeps : ∀ t, a ≠ .abandon t ∧ a ≠ .collect t) :
    s.replies <+: s'.replies := by
  cases turn with
  | applies | drops => exact List.prefix_append _ _
  | abandons => exact absurd rfl (keeps _).1
  | collects => exact absurd rfl (keeps _).2
  | _ => exact List.prefix_rfl

theorem replies_isPrefix {actions : List (Action π)}
    (keeps : ∀ a ∈ actions, ∀ t, a ≠ .abandon t ∧ a ≠ .collect t) :
    s.replies <+: (s.after actions).replies := by
  induction actions generalizing s with
  | nil => exact List.prefix_rfl
  | cons a rest ih =>
    have first := (turn s a).replies_isPrefix (keeps a List.mem_cons_self)
    exact first.trans (ih fun a mem => keeps a (List.mem_cons_of_mem _ mem))

end Scheduler

namespace Timeline

open Scheduler Command

variable {t : Timeline} {id : String} {channel : Channel}

/-- Once the worker has worked off its queue it is still at work, and the broker has no session of
the agent. -/
structure Welcomes (t : Timeline) (id : String) : Prop where
  running : (t.scheduler.settle t.now).phase = .running
  absent : (t.scheduler.settle t.now).broker.isConnected id = false

theorem welcomes_of_idle (empty : t.scheduler.queue = []) :
    t.Welcomes id ↔ t.scheduler.phase = .running ∧ t.scheduler.broker.isConnected id = false := by
  have goes : .stop ∉ t.scheduler.queue := empty ▸ List.not_mem_nil
  have still (running : t.scheduler.phase = .running) :
      t.scheduler.settle t.now = t.scheduler := by
    rw [@settle_queue Unit _ running goes, empty]
    rfl
  constructor
  · rintro ⟨running, absent⟩
    have before := ((running_settle_iff _ _).mp running).1
    rw [still before] at absent
    exact ⟨before, absent⟩
  · rintro ⟨running, absent⟩
    exact ⟨(still running).symm ▸ running, (still running).symm ▸ absent⟩

theorem exists_settling (t : Timeline) :
    ∃ rest, t.settling = t.scheduler.emptying t.now ++ rest := by
  rw [settling]
  cases t.sweeper with
  | none => exact ⟨[], (List.append_nil _).symm⟩
  | some w => exact ⟨_, List.append_assoc _ _ _⟩

/-- The answer to the request is the last one that the worker gives. -/
theorem replies_asking (numbered : t.scheduler.Numbered)
    (running : (t.scheduler.settle t.now).phase = .running) :
    (t.scheduler.settle t.now).replies ++ [(t.scheduler.tickets,
        .admitted !(t.scheduler.settle t.now).broker.isConnected id)] <+:
      ((t.asking ⟨.connect id channel, fun _ => rfl⟩).settle.scheduler).replies := by
  let make : { make : Ticket → Command // ∀ n, (make n).ticket? = some n } :=
    ⟨.connect id channel, fun _ => rfl⟩
  have works := ((running_settle_iff _ _).mp running).1
  have asked : (t.asking make).scheduler = { t.scheduler with
      queue := t.scheduler.queue ++ [.connect id channel t.scheduler.tickets]
      tickets := t.scheduler.tickets + 1 } := by
    simp only [asking, Scheduler.act, Scheduler.request?, Scheduler.enqueue?_eq, works]
    rfl
  have first := @settle_request t.scheduler numbered t.now running
    (.connect id channel t.scheduler.tickets) rfl (t.scheduler.tickets + 1)
  rw [← asked] at first
  have given : (t.scheduler.settle t.now).broker.replies
      (.command t.now 0 true (.connect id channel t.scheduler.tickets)) =
        [(t.scheduler.tickets, .admitted !(t.scheduler.settle t.now).broker.isConnected id)] := by
    rw [Broker.replies, Broker.apply, Broker.connect]
    cases (t.scheduler.settle t.now).broker.isConnected id with
    | true => rfl
    | false => rfl
  -- What the sweeper posts later takes no answer away.
  have later : ((t.asking make).scheduler.settle t.now).replies <+:
      ((t.asking make).settle.scheduler).replies := by
    obtain ⟨rest, whole⟩ := exists_settling (t.asking make)
    rw [settle_eq, whole, Scheduler.after_append, ← Scheduler.settle_eq]
    refine Scheduler.replies_isPrefix fun a mem ticket => ?_
    rcases mem_settling (whole ▸ List.mem_append_right _ mem) with rfl | ⟨maxIdle, rfl⟩
    · exact ⟨by simp, by simp⟩
    · exact ⟨by simp, by simp⟩
  rw [first, given] at later
  exact later

theorem request_admission (numbered : t.scheduler.Numbered)
    (running : (t.scheduler.settle t.now).phase = .running) :
    (t.request (.connect id channel)).1 =
      .admitted !(t.scheduler.settle t.now).broker.isConnected id := by
  have works := ((running_settle_iff _ _).mp running).1
  have isOpen : t.scheduler.isStopped = false := by
    rw [isStopped, works]
    rfl
  obtain ⟨more, replies⟩ := @replies_asking t id channel numbered running
  have old : (t.scheduler.settle t.now).replies.lookup t.scheduler.tickets = none := by
    refine List.lookup_eq_none_iff.mpr fun p mem => bne_iff_ne.mpr fun same => ?_
    have handed := (ticketed_settle numbered.ticketed t.now).replies p mem
    rw [tickets_settle, same] at handed
    exact absurd handed (Nat.lt_irrefl _)
  have found : (t.asking ⟨.connect id channel, fun _ => rfl⟩).settle.scheduler.replies.lookup
      t.scheduler.tickets =
        some (.admitted !(t.scheduler.settle t.now).broker.isConnected id) := by
    rw [← replies, List.append_assoc, List.lookup_append, old, Option.none_or]
    exact List.lookup_cons_self
  have reply := @request_open t ⟨.connect id channel, fun _ => rfl⟩ isOpen
  rw [collect?, found] at reply
  exact congrArg Prod.fst reply

theorem running_of_admitted (ticketed : t.scheduler.Ticketed)
    (admitted : (t.request (.connect id channel)).1 = .admitted true) :
    (t.scheduler.settle t.now).phase = .running := by
  obtain ⟨before, now, elapsed, awaited, later, split, -⟩ := connected_of_admitted ticketed admitted
  have mem : Command.connect id channel t.scheduler.tickets ∈ Broker.commands
      (t.scheduler.carried (t.requesting ⟨.connect id channel, fun _ => rfl⟩)) := by
    rw [split, Broker.commands, List.filterMap_append]
    exact List.mem_append_right _ List.mem_cons_self
  rw [commands_carried] at mem
  split at mem
  next works =>
    refine (running_settle_iff _ _).mpr ⟨works, fun stops => ?_⟩
    have popped := popped_queue t.scheduler
      (t.requesting ⟨.connect id channel, fun _ => rfl⟩)
    have front := untilStop_prefix_of ⟨_, popped⟩
    rw [untilStop_append stops] at front
    have waits := (List.takeWhile_sublist _).subset (front.subset mem)
    exact absurd (ticketed.queue _ (List.mem_filterMap.mpr ⟨_, waits, rfl⟩)) (Nat.lt_irrefl _)
  · cases mem

theorem admitted_iff_welcomes (numbered : t.scheduler.Numbered) :
    (t.request (.connect id channel)).1 = .admitted true ↔ t.Welcomes id := by
  constructor
  · intro admitted
    have running := running_of_admitted numbered.ticketed admitted
    rw [request_admission numbered running] at admitted
    exact ⟨running, by simpa using admitted⟩
  · rintro ⟨running, absent⟩
    rw [request_admission numbered running, absent]
    rfl

end Timeline

end AgentBroker
