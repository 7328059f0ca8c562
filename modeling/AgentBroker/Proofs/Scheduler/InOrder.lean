import AgentBroker.Proofs.Scheduler.Order

/-!
# Commands in their order

The laws of the queue, for a scheduler that starts with an empty one.
-/

namespace AgentBroker.Scheduler

open Command

variable {π : Type} {s : Scheduler}

/-- What the scheduler makes of the commands that are brought to it. -/
structure InOrder (s : Scheduler) (actions : List (Action π)) : Prop where
  /-- The broker is where the commands that are carried out bring it one after the other, with what
  happens at the mailboxes between them. -/
  broker : (s.after actions).broker = Run.last Broker.after s.broker (s.carried actions)
  /-- Carried out are the first commands that producers have brought, each of them once. -/
  order : ∃ first, first <+: s.brought actions ∧
    Broker.commands (s.carried actions) = first.map (·.2)
  /-- No command behind a stop is carried out. -/
  front : Broker.commands (s.carried actions) <+: untilStop ((s.brought actions).map (·.2))
  /-- All commands in front of the first stop are carried out. -/
  all : (s.after actions).phase ≠ .running ∨ (s.after actions).queue = [] →
    Broker.commands (s.carried actions) = untilStop ((s.brought actions).map (·.2))
  /-- They are carried out as soon as the worker has taken its steps. -/
  prompt : ∀ more, (s.after actions).queue.length < works more →
    untilStop ((s.brought actions).map (·.2)) <+: Broker.commands (s.carried (actions ++ more))
  /-- The answers are those of the commands that are carried out, in their order, and behind them
  the refusals of requests behind the first stop. -/
  answers : ∃ refusals,
    s.answered actions = sequential s.broker (s.carried actions) ++ refusals ∧
    (∀ p ∈ refusals, p.2 = .stopped) ∧
    (refusals.map (·.1)).Sublist (ticketsOf (behindStop ((s.accepted actions).map (·.2))))
  /-- No request has two answers. -/
  single : ((s.answered actions).map (·.1)).Nodup
  /-- A request is carried out as an awaited one, unless its answer is given up. -/
  awaited : ∀ {now elapsed awaited c t}, .command now elapsed awaited c ∈ s.carried actions →
    c.ticket? = some t → .abandon t ∉ actions → awaited = true
  /-- Every request that the queue takes is answered as soon as the worker has taken its steps. -/
  answering : ∀ more, (s.after actions).queue.length < works more →
    ∀ t ∈ ticketsOf ((s.accepted actions).map (·.2)), .abandon t ∉ actions ++ more →
      ∃ r, (t, r) ∈ s.answered (actions ++ more)
  /-- The answer to a request in front of the first stop is the one that the broker gives. -/
  fulfilled : ∀ t ∈ ticketsOf (untilStop ((s.accepted actions).map (·.2))), ∀ r,
    (t, r) ∈ s.answered actions → (t, r) ∈ sequential s.broker (s.carried actions)
  /-- The answer to a request behind it is that it was never carried out. -/
  refused : ∀ t ∈ ticketsOf (behindStop ((s.accepted actions).map (·.2))),
    (∀ r, (t, r) ∈ s.answered actions → r = .stopped) ∧
    ∀ more, (s.after actions).queue.length < works more → .abandon t ∉ actions ++ more →
      (t, .stopped) ∈ s.answered (actions ++ more)
  /-- Whoever has brought a request can collect the answer. -/
  collected : ∀ t, .abandon t ∉ actions → .collect t ∉ actions → ∀ r,
    (((s.after actions).collect? t).map (·.1) = some r ↔ (t, r) ∈ s.answered actions)
  /-- The queue takes all commands until it is closed, and none afterwards. -/
  taken : s.accepted actions <+: s.brought actions ∧
    ((s.after actions).isStopped = false → s.accepted actions = s.brought actions)
  closed : (s.after actions).isStopped → ∀ more,
    (∀ c, (s.after (actions ++ more)).enqueue? c = none) ∧
    ∀ make, (s.after (actions ++ more)).request? make = none

theorem after_append (s : Scheduler) (actions more : List (Action π)) :
    s.after (actions ++ more) = (s.after actions).after more :=
  Run.last_append _ _ _

section

variable (running : s.phase = .running) (empty : s.queue = []) (actions : List (Action π))

include empty in
theorem popped_isPrefix : s.popped actions <+: (s.accepted actions).map (·.2) := by
  have fifo := s.popped_queue actions
  rw [empty, List.nil_append] at fifo
  rw [← fifo]
  exact List.prefix_append _ _

include empty in
theorem accepted_prefix_popped (more : List (Action π))
    (enough : (s.after actions).queue.length < works more) :
    (s.accepted actions).map (·.2) <+: s.popped (actions ++ more) := by
  have fifo := s.popped_queue actions
  rw [empty, List.nil_append] at fifo
  have split : s.popped (actions ++ more) = s.popped actions ++ (s.after actions).popped more :=
    Run.log_append _ _ _
  have closing : (s.after actions).closing ≤ 1 := by
    rw [Scheduler.closing]
    split <;> omega
  have many := popped_of_works (s.after actions) more (Nat.le_refl _) (by omega)
  have order : (s.after actions).queue <+: (s.after actions).popped more := by
    have later := (s.after actions).popped_queue more
    exact List.prefix_of_prefix_length_le (List.prefix_append _ _) ⟨_, later⟩ many
  rw [← fifo, split]
  exact (List.prefix_append_right_inj _).mpr order

include running empty in
theorem untilStop_brought :
    untilStop ((s.brought actions).map (·.2)) = untilStop ((s.accepted actions).map (·.2)) := by
  obtain ⟨taken, all⟩ := s.accepted_prefix_brought actions
  by_cases stopped : (s.after actions).phase = .stopped
  · have stop : .stop ∈ s.popped actions := by
      by_contra goes
      rw [(running_after_iff s actions).mpr ⟨running, goes⟩] at stopped
      cases stopped
    have mem := (popped_isPrefix empty actions).subset stop
    obtain ⟨rest, split⟩ := taken
    rw [← split, List.map_append, untilStop_append mem]
  · rw [all stopped]

include empty in
theorem untilStop_popped_prefix_brought :
    untilStop (s.popped actions) <+: (s.brought actions).map (·.2) :=
  ((List.takeWhile_prefix _).trans (popped_isPrefix empty actions)).trans
    ((s.accepted_prefix_brought actions).1.map (·.2))

include running empty in
theorem untilStop_popped_of_done
    (done : (s.after actions).phase ≠ .running ∨ (s.after actions).queue = []) :
    untilStop (s.popped actions) = untilStop ((s.brought actions).map (·.2)) := by
  rw [untilStop_brought running empty]
  rcases done with halted | drained
  · have stop : .stop ∈ s.popped actions := by
      by_contra goes
      exact halted ((running_after_iff s actions).mpr ⟨running, goes⟩)
    obtain ⟨rest, whole⟩ := popped_isPrefix empty actions
    rw [← whole, untilStop_append stop]
  · have fifo := s.popped_queue actions
    rw [drained, empty, List.append_nil, List.nil_append] at fifo
    rw [fifo]

end

theorem accepted_tickets_nodup (s : Scheduler) (actions : List (Action π)) :
    (ticketsOf ((s.accepted actions).map (·.2))).Nodup := by
  obtain ⟨n, eq, -⟩ := s.accepted_tickets actions
  rw [eq]
  exact List.nodup_range'

theorem not_mem_untilStop_of_mem_behindStop {cs : List Command} (once : (ticketsOf cs).Nodup)
    {t : Ticket} (behind : t ∈ ticketsOf (behindStop cs)) : t ∉ ticketsOf (untilStop cs) := by
  intro front
  have parts := once.sublist ((untilStop_append_behindStop cs).filterMap _)
  change (ticketsOf (untilStop cs ++ behindStop cs)).Nodup at parts
  rw [ticketsOf_append, List.nodup_append] at parts
  exact parts.2.2 t front t behind rfl

section

variable (notifications : NotificationSettings) (actions : List (Action π)) {t : Ticket}

theorem commands_start :
    Broker.commands ((start notifications).carried actions) =
      untilStop ((start notifications).popped actions) :=
  (commands_carried _ actions).trans (if_pos rfl)

variable {actions}

theorem not_abandoned (goes : .abandon t ∉ actions) :
    t ∉ ((start notifications).after actions).abandoned := fun h =>
  ((abandoned_after_iff _ actions t).mp h).elim Std.ExtTreeSet.not_mem_empty goes

theorem start_answers {more : List (Action π)}
    (enough : ((start notifications).after actions).queue.length < works more)
    (mem : t ∈ ticketsOf (((start notifications).accepted actions).map (·.2)))
    (goes : .abandon t ∉ actions ++ more) :
    ∃ r, (t, r) ∈ (start notifications).answered (actions ++ more) := by
  have out := accepted_prefix_popped rfl actions more enough
  have left : t ∈ ticketsOf ((start notifications).popped (actions ++ more)) :=
    (out.sublist.filterMap _).subset mem
  have awaited := not_abandoned notifications goes
  obtain ⟨⟨_, r⟩, given, rfl⟩ := List.mem_map.mp (answered_of_popped _ _ left awaited)
  exact ⟨r, given⟩

theorem start_refuses {r : Reply} (given : (t, r) ∈ (start notifications).answered actions)
    (late : t ∈ ticketsOf (behindStop (((start notifications).accepted actions).map (·.2)))) :
    r = .stopped := by
  obtain ⟨refusals, split, refuses, -⟩ := (start notifications).answered_split actions
  rw [split] at given
  rcases List.mem_append.mp given with sequence | refusal
  · have early : t ∈ ticketsOf (untilStop ((start notifications).popped actions)) := by
      have mem := (sequential_tickets _ _).subset (List.mem_map_of_mem sequence)
      rwa [commands_start] at mem
    have out : (start notifications).popped actions <+:
        ((start notifications).accepted actions).map (·.2) :=
      popped_isPrefix rfl actions
    have once := accepted_tickets_nodup (start notifications) actions
    exact absurd (((untilStop_prefix_of out).sublist.filterMap _).subset early)
      (not_mem_untilStop_of_mem_behindStop once late)
  · exact refuses _ refusal

theorem start_refused {more : List (Action π)}
    (late : t ∈ ticketsOf (behindStop (((start notifications).accepted actions).map (·.2))))
    (enough : ((start notifications).after actions).queue.length < works more)
    (goes : .abandon t ∉ actions ++ more) :
    (t, .stopped) ∈ (start notifications).answered (actions ++ more) := by
  let s := start notifications
  have within : (behindStop ((s.accepted actions).map (·.2))).Sublist
      ((s.accepted actions).map (·.2)) :=
    (List.sublist_append_right _ _).trans (untilStop_append_behindStop _)
  have mem : t ∈ ticketsOf ((s.accepted actions).map (·.2)) := (within.filterMap _).subset late
  obtain ⟨r, given⟩ := start_answers notifications enough mem goes
  have longer : (s.accepted actions).map (·.2) <+: (s.accepted (actions ++ more)).map (·.2) := by
    refine List.IsPrefix.map _ ⟨(s.after actions).accepted more, ?_⟩
    exact (Run.log_append _ _ _).symm
  have still := ((behindStop_sublist_of longer).filterMap _).subset late
  rwa [start_refuses notifications given still] at given

end

/-- A scheduler that starts with an empty queue carries out what stands in front of the first stop,
once and in its order, and refuses what stands behind it. -/
theorem start_inOrder (notifications : NotificationSettings) (actions : List (Action π)) :
    InOrder (start notifications) actions := by
  let s := start notifications
  have running : s.phase = .running := rfl
  have empty : s.queue = [] := rfl
  have done (actions : List (Action π)) :
      Broker.commands (s.carried actions) = untilStop (s.popped actions) :=
    commands_start notifications actions
  have out := popped_isPrefix empty actions
  have once := s.accepted_tickets_nodup actions
  have single : ((s.answered actions).map (·.1)).Nodup :=
    once.sublist ((s.answered_tickets actions).trans (out.sublist.filterMap _))
  have waiting : (s.after actions).replies.Sublist (s.answered actions) :=
    s.replies_after_sublist actions
  obtain ⟨refusals, split, refuses, tickets⟩ := s.answered_split actions
  rw [behind, if_pos running] at tickets
  constructor
  case broker => exact s.broker_after actions
  case single => exact single
  case order =>
    have leading := untilStop_popped_prefix_brought empty actions
    refine ⟨(s.brought actions).take (untilStop (s.popped actions)).length,
      List.take_prefix _ _, ?_⟩
    rw [done, List.map_take]
    exact List.prefix_iff_eq_take.mp leading
  case front =>
    rw [done, untilStop_brought running empty]
    exact untilStop_prefix_of out
  case all =>
    intro settled
    rw [done, untilStop_popped_of_done running empty actions settled]
  case prompt =>
    intro more enough
    rw [done, untilStop_brought running empty]
    exact untilStop_prefix_of (accepted_prefix_popped empty actions more enough)
  case answers =>
    exact ⟨refusals, split, refuses, tickets.trans ((behindStop_sublist_of out).filterMap _)⟩
  case awaited =>
    exact fun mem ticket goes =>
      s.awaited_of_carried actions ticket mem (not_abandoned notifications goes)
  case answering => exact fun more enough t mem goes => start_answers notifications enough mem goes
  case fulfilled =>
    intro t early r given
    rw [split] at given
    rcases List.mem_append.mp given with sequence | refusal
    · exact sequence
    · have mem := tickets.subset (List.mem_map_of_mem refusal)
      have late := ((behindStop_sublist_of out).filterMap _).subset mem
      exact absurd early (not_mem_untilStop_of_mem_behindStop once late)
  case refused =>
    exact fun t late => ⟨fun r given => start_refuses notifications given late,
      fun more enough goes => start_refused notifications late enough goes⟩
  case collected =>
    intro t goes stays r
    rw [collect?_eq_some (single.sublist (waiting.map _))]
    exact ⟨fun mem => waiting.subset mem, fun mem => s.replies_after_kept actions mem goes stays⟩
  case taken =>
    obtain ⟨taken, all⟩ := s.accepted_prefix_brought actions
    refine ⟨taken, fun isOpen => all fun stopped => ?_⟩
    have closed : (s.after actions).isStopped = true := beq_iff_eq.mpr stopped
    rw [isOpen] at closed
    cases closed
  case closed =>
    intro stopped more
    have still : (s.after (actions ++ more)).phase = .stopped := by
      rw [after_append]
      exact after_stopped (beq_iff_eq.mp stopped) more
    refine ⟨fun c => ?_, fun make => ?_⟩
    · rw [enqueue?_eq, if_pos still]
    · rw [request?, enqueue?_eq, if_pos still]
      rfl

/-- The request behind the stop is refused although it came before the queue was closed. -/
theorem start_inOrder_late :
    let early : List (Action Bool) :=
      [.request true ⟨.sessions, fun _ => rfl⟩, .post false ⟨.stop, rfl⟩,
        .request true ⟨.stats, fun _ => rfl⟩]
    let more : List (Action Bool) := List.replicate 4 (.work 0 0)
    (∃ r, (0, r) ∈ (start default).answered (early ++ more)) ∧
    (1, .stopped) ∈ (start default).answered (early ++ more) := by
  intro early more
  have orderly := start_inOrder default early
  have enough : ((start default).after early).queue.length < works more := by decide
  exact ⟨orderly.answering more enough 0 (by decide) (by simp [early, more]),
    (orderly.refused 1 (by decide)).2 more enough (by simp [early, more])⟩

end AgentBroker.Scheduler
