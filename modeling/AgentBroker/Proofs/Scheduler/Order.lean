import AgentBroker.Proofs.Scheduler.Work
import Mathlib.Data.List.Nodup
import Mathlib.Data.List.Range

/-!
# The order of the queue

Whatever the interleaving, the worker carries out the commands in front of the first stop, once and
in the order in which they came to the queue. What stands behind a stop is refused.
-/

namespace AgentBroker.Scheduler

open Command

variable {π : Type} {s s' : Scheduler} {a : Action π} {put : List (π × Command)}
  {out : List Command} {events : List Broker.Event} {given : List (Ticket × Reply)}

def after (s : Scheduler) (actions : List (Action π)) : Scheduler := Run.last act s actions

def brought (s : Scheduler) (actions : List (Action π)) : List (π × Command) :=
  Run.log act brings s actions

def accepted (s : Scheduler) (actions : List (Action π)) : List (π × Command) :=
  Run.log act accepts s actions

def popped (s : Scheduler) (actions : List (Action π)) : List Command := Run.log act pops s actions

def carried (s : Scheduler) (actions : List (Action π)) : List Broker.Event :=
  Run.log act carries s actions

def answered (s : Scheduler) (actions : List (Action π)) : List (Ticket × Reply) :=
  Run.log act answers s actions

def ticketsOf (cs : List Command) : List Ticket := cs.filterMap Command.ticket?

theorem ticketsOf_append (xs ys : List Command) :
    ticketsOf (xs ++ ys) = ticketsOf xs ++ ticketsOf ys :=
  List.filterMap_append

theorem Turn.queue_eq (h : Turn s a put out events given s') :
    out ++ s'.queue = s.queue ++ put.map (·.2) := by
  cases h with
  | applies _ first | halts _ first | drops _ first => simp [first]
  | _ => simp [abandon]

/-- What has left the queue stood in front of what is still there. -/
theorem popped_queue (s : Scheduler) (actions : List (Action π)) :
    s.popped actions ++ (s.after actions).queue = s.queue ++ (s.accepted actions).map (·.2) := by
  induction actions generalizing s with
  | nil => exact (List.append_nil _).symm
  | cons a rest ih =>
    have first := (turn s a).queue_eq
    have later := ih (s.act a)
    change s.pops a ++ (s.act a).popped rest ++ ((s.act a).after rest).queue =
      s.queue ++ (s.accepts a ++ (s.act a).accepted rest).map (·.2)
    rw [List.append_assoc, later, ← List.append_assoc, first, List.map_append, List.append_assoc]

theorem Turn.stopped (h : Turn s a put out events given s') (stopped : s.phase = .stopped) :
    s'.phase = .stopped := by
  cases h with
  | halts running => rw [running] at stopped; cases stopped
  | closes => rfl
  | _ => exact stopped

theorem Turn.running_iff (h : Turn s a put out events given s') :
    s'.phase = .running ↔ s.phase = .running ∧ .stop ∉ out := by
  cases h with
  | @applies _ _ c _ running _ goes =>
    have other : .stop ∉ [c] := fun mem => goes (List.mem_singleton.mp mem ▸ rfl)
    exact ⟨fun _ => ⟨running, other⟩, fun _ => running⟩
  | halts => simp
  | closes stopping => simp [stopping]
  | drops stopped => simp [stopped]
  | _ => simp [abandon]

theorem after_stopped (stopped : s.phase = .stopped) (actions : List (Action π)) :
    (s.after actions).phase = .stopped :=
  Run.last_induction (fun s a => (turn s a).stopped) s stopped actions

/-- The worker goes on until it takes a stop. -/
theorem running_after_iff (s : Scheduler) (actions : List (Action π)) :
    (s.after actions).phase = .running ↔ s.phase = .running ∧ .stop ∉ s.popped actions := by
  induction actions generalizing s with
  | nil => exact ⟨fun running => ⟨running, List.not_mem_nil⟩, And.left⟩
  | cons a rest ih =>
    have first := (turn s a).running_iff
    have later := ih (s.act a)
    change ((s.act a).after rest).phase = .running ↔
      s.phase = .running ∧ .stop ∉ s.pops a ++ (s.act a).popped rest
    rw [later, first, List.mem_append, not_or, and_assoc]

theorem accepts_eq_brings (isOpen : s.phase ≠ .stopped) (a : Action π) :
    s.accepts a = s.brings a := by
  rw [accepts, isStopped, if_neg (by simpa using isOpen)]

theorem accepted_eq_nil (stopped : s.phase = .stopped) (actions : List (Action π)) :
    s.accepted actions = [] := by
  refine Run.log_eq_nil s actions fun before a later _ => ?_
  have still := after_stopped stopped before
  exact if_pos (by rw [isStopped]; exact beq_iff_eq.mpr still)

theorem accepted_prefix_brought (s : Scheduler) (actions : List (Action π)) :
    s.accepted actions <+: s.brought actions ∧
      ((s.after actions).phase ≠ .stopped → s.accepted actions = s.brought actions) := by
  induction actions generalizing s with
  | nil => exact ⟨List.prefix_rfl, fun _ => rfl⟩
  | cons a rest ih =>
    by_cases stopped : s.phase = .stopped
    · rw [accepted_eq_nil stopped]
      exact ⟨List.nil_prefix, fun isOpen => absurd (after_stopped stopped (a :: rest)) isOpen⟩
    · obtain ⟨front, all⟩ := ih (s.act a)
      have same : s.accepted (a :: rest) = s.brings a ++ (s.act a).accepted rest :=
        congrArg (· ++ _) (accepts_eq_brings stopped a)
      rw [same]
      exact ⟨List.prefix_append_right_inj _ |>.mpr front,
        fun isOpen => congrArg (_ ++ ·) (all isOpen)⟩

theorem Turn.broker_eq (h : Turn s a put out events given s') :
    s'.broker = Run.last Broker.after s.broker events := by
  cases h <;> rfl

theorem broker_after (s : Scheduler) (actions : List (Action π)) :
    (s.after actions).broker = Run.last Broker.after s.broker (s.carried actions) := by
  induction actions generalizing s with
  | nil => rfl
  | cons a rest ih =>
    have first := (turn s a).broker_eq
    have later := ih (s.act a)
    rw [first, ← Run.last_append] at later
    exact later

theorem Turn.commands_eq (h : Turn s a put out events given s') :
    Broker.commands events = if s.phase = .running then untilStop out else [] := by
  cases h with
  | applies running _ goes => rw [if_pos running, untilStop_cons goes]; rfl
  | halts running => rw [if_pos running]; rfl
  | drops stopped => rw [stopped]; rfl
  | @happens e => simp [Broker.commands, e.2, untilStop]
  | _ => simp [Broker.commands, untilStop]

/-- Of the commands that leave the queue those in front of the first stop are carried out. -/
theorem commands_carried (s : Scheduler) (actions : List (Action π)) :
    Broker.commands (s.carried actions) =
      if s.phase = .running then untilStop (s.popped actions) else [] := by
  induction actions generalizing s with
  | nil => exact (ite_self []).symm
  | cons a rest ih =>
    have first := (turn s a).commands_eq
    have still := (turn s a).running_iff
    have later := ih (s.act a)
    have split : Broker.commands (s.carried (a :: rest)) =
        Broker.commands (s.carries a) ++ Broker.commands ((s.act a).carried rest) :=
      List.filterMap_append
    have whole : s.popped (a :: rest) = s.pops a ++ (s.act a).popped rest := rfl
    rw [split, first, later, whole]
    by_cases running : s.phase = .running
    · by_cases stop : .stop ∈ s.pops a
      · have halted : ¬ (s.act a).phase = .running := fun h => (still.mp h).2 stop
        simp only [if_pos running, if_neg halted, untilStop_append stop, List.append_nil]
      · rw [if_pos running, if_pos (still.mpr ⟨running, stop⟩), if_pos running,
          untilStop_append_of_not_mem stop, untilStop_eq_self stop]
    · have halted : ¬ (s.act a).phase = .running := fun h => running (still.mp h).1
      simp only [if_neg running, if_neg halted, List.append_nil]

/-- The answers of a broker to which some events happen one after the other. -/
def sequential (b : Broker) (events : List Broker.Event) : List (Ticket × Reply) :=
  Run.log Broker.after Broker.replies b events

theorem sequential_eq_nil {b : Broker} (h : Broker.commands events = []) :
    sequential b events = [] := by
  refine Run.log_eq_nil b events fun before e later split => ?_
  have none : ∀ e ∈ events, e.command? = none := List.filterMap_eq_nil_iff.mp h
  exact Broker.replies_eq_nil (none e (by simp [split]))

theorem replyTo_tickets (awaited : Bool) (c : Command) (r : Reply) :
    ((c.replyTo awaited r).map (·.1)).Sublist c.ticket?.toList := by
  rw [replyTo]
  split
  · rw [List.map_map]
    exact (List.map_id _).symm ▸ List.Sublist.refl _
  · exact List.nil_sublist _

theorem ticketsOf_singleton (c : Command) : ticketsOf [c] = c.ticket?.toList := by
  cases ticket : c.ticket? <;> simp [ticketsOf, ticket]

theorem replies_tickets (b : Broker) (now elapsed : Nanos) (awaited : Bool) (c : Command) :
    ((b.replies (.command now elapsed awaited c)).map (·.1)).Sublist c.ticket?.toList := by
  rw [Broker.replies]
  cases (b.apply now elapsed awaited c).1 with
  | none => exact List.nil_sublist _
  | some r =>
    rw [Option.toList_some, List.flatMap_singleton]
    exact replyTo_tickets _ c r

theorem Turn.given_tickets (h : Turn s a put out events given s') :
    (given.map (·.1)).Sublist (ticketsOf out) := by
  cases h with
  | @applies now elapsed c =>
    rw [ticketsOf_singleton]
    exact replies_tickets _ now elapsed _ c
  | @drops now elapsed c =>
    rw [ticketsOf_singleton]
    exact replyTo_tickets _ c _
  | _ => exact List.nil_sublist _

theorem sequential_tickets (b : Broker) (events : List Broker.Event) :
    ((sequential b events).map (·.1)).Sublist (ticketsOf (Broker.commands events)) := by
  have single (b : Broker) (e : Broker.Event) :
      ((b.replies e).map (·.1)).Sublist (ticketsOf e.command?.toList) := by
    cases e with
    | command now elapsed awaited c =>
      rw [Broker.Event.command?, Option.toList_some, ticketsOf_singleton]
      exact replies_tickets b now elapsed awaited c
    | _ => exact List.nil_sublist _
  induction events generalizing b with
  | nil => exact List.nil_sublist _
  | cons e rest ih =>
    have whole := (single b e).append (ih (b.after e))
    rw [← List.map_append, ← ticketsOf_append] at whole
    have split : e.command?.toList ++ Broker.commands rest = Broker.commands (e :: rest) := by
      cases command : e.command? <;> simp [Broker.commands, command]
    rwa [split] at whole

theorem answered_tickets (s : Scheduler) (actions : List (Action π)) :
    ((s.answered actions).map (·.1)).Sublist (ticketsOf (s.popped actions)) := by
  induction actions generalizing s with
  | nil => exact List.nil_sublist _
  | cons a rest ih =>
    have whole := (turn s a).given_tickets.append (ih (s.act a))
    rwa [← List.map_append, ← ticketsOf_append] at whole

theorem Turn.given_eq (h : Turn s a put out events given s') (isOpen : s.phase ≠ .stopped) :
    given = sequential s.broker events := by
  cases h with
  | applies => exact (List.append_nil _).symm
  | drops stopped => exact absurd stopped isOpen
  | @happens e => rw [sequential_eq_nil (by simp [Broker.commands, e.2])]
  | _ => rfl

theorem Turn.given_stopped (h : Turn s a put out events given s') (stopped : s.phase = .stopped) :
    ∀ p ∈ given, p.2 = .stopped := by
  cases h with
  | applies running => rw [running] at stopped; cases stopped
  | drops =>
    intro p mem
    rw [replyTo] at mem
    split at mem
    · obtain ⟨t, -, rfl⟩ := List.mem_map.mp mem
      rfl
    · cases mem
  | _ => exact List.forall_mem_nil _

def behind (s : Scheduler) (actions : List (Action π)) : List Command :=
  if s.phase = .running then behindStop (s.popped actions) else s.popped actions

theorem behind_sublist_cons (s : Scheduler) (a : Action π) (rest : List (Action π)) :
    ((s.act a).behind rest).Sublist (s.behind (a :: rest)) := by
  have still := (turn s a).running_iff
  have whole : s.popped (a :: rest) = s.pops a ++ (s.act a).popped rest := rfl
  rw [behind, behind, whole]
  by_cases running : s.phase = .running
  · rw [if_pos running]
    by_cases stop : .stop ∈ s.pops a
    · rw [if_neg fun h => (still.mp h).2 stop, behindStop_append stop]
      exact List.sublist_append_right _ _
    · rw [if_pos (still.mpr ⟨running, stop⟩), behindStop_append_of_not_mem stop]
  · rw [if_neg running, if_neg fun h => running (still.mp h).1]
    exact List.sublist_append_right _ _

/-- First the answers of the commands that are carried out, then the refusals. -/
theorem answered_split (s : Scheduler) (actions : List (Action π)) :
    ∃ refusals, s.answered actions = sequential s.broker (s.carried actions) ++ refusals ∧
      (∀ p ∈ refusals, p.2 = .stopped) ∧
      (refusals.map (·.1)).Sublist (ticketsOf (s.behind actions)) := by
  induction actions generalizing s with
  | nil => exact ⟨[], rfl, List.forall_mem_nil _, List.nil_sublist _⟩
  | cons a rest ih =>
    obtain ⟨refusals, eq, refuses, tickets⟩ := ih (s.act a)
    have whole : s.answered (a :: rest) = s.answers a ++ (s.act a).answered rest := rfl
    by_cases stopped : s.phase = .stopped
    · have still := (turn s a).stopped stopped
      have silent {s : Scheduler} (stopped : s.phase = .stopped) (actions : List (Action π)) :
          sequential s.broker (s.carried actions) = [] := by
        refine sequential_eq_nil ?_
        rw [commands_carried, if_neg (by simp [stopped])]
      have pieces : s.behind (a :: rest) = s.pops a ++ (s.act a).behind rest := by
        rw [behind, behind, if_neg (by simp [stopped]), if_neg (by simp [still])]
        rfl
      refine ⟨s.answers a ++ refusals, ?_, ?_, ?_⟩
      · rw [whole, eq, silent stopped, silent still]
        rfl
      · exact fun p mem => (List.mem_append.mp mem).elim
          ((turn s a).given_stopped stopped p) (refuses p)
      · rw [List.map_append, pieces, ticketsOf_append]
        exact (turn s a).given_tickets.append tickets
    · refine ⟨refusals, ?_, refuses, tickets.trans ((behind_sublist_cons s a rest).filterMap _)⟩
      have sequence : sequential s.broker (s.carried (a :: rest)) =
          sequential s.broker (s.carries a) ++
            sequential (s.act a).broker ((s.act a).carried rest) := by
        rw [(turn s a).broker_eq]
        exact Run.log_append _ _ _
      rw [whole, eq, (turn s a).given_eq stopped, sequence, List.append_assoc]

theorem Turn.abandoned_iff (h : Turn s a put out events given s') (t : Ticket) :
    t ∈ s'.abandoned ↔ t ∈ s.abandoned ∨ a = .abandon t := by
  cases h with
  | @abandons u =>
    have insert : t ∈ s.abandoned.insert u ↔ u = t ∨ t ∈ s.abandoned := by
      rw [Std.ExtTreeSet.mem_insert, Std.compare_eq_iff_eq]
    rw [abandon, insert, Action.abandon.injEq, or_comm]
  | refused closed tries =>
    refine ⟨.inl, fun h => h.elim id ?_⟩
    rintro rfl
    exact absurd rfl tries
  | _ => simp

theorem abandoned_after_iff (s : Scheduler) (actions : List (Action π)) (t : Ticket) :
    t ∈ (s.after actions).abandoned ↔ t ∈ s.abandoned ∨ .abandon t ∈ actions := by
  induction actions generalizing s with
  | nil => simp [after]
  | cons a rest ih =>
    have first := (turn s a).abandoned_iff t
    have later := ih (s.act a)
    rw [first, or_assoc] at later
    refine later.trans (or_congr_right ?_)
    rw [List.mem_cons, eq_comm]

theorem awaits_of_not_abandoned {c : Command} {t : Ticket} (ticket : c.ticket? = some t)
    (awaited : t ∉ s.abandoned) : s.awaits c = true := by
  have absent : s.abandoned.contains t = false := Bool.eq_false_iff.mpr awaited
  simp only [awaits, ticket, absent, Bool.not_false]

theorem Turn.settles (h : Turn s a put out events given s') {t : Ticket} (mem : t ∈ ticketsOf out)
    (awaited : t ∉ s.abandoned) : t ∈ given.map (·.1) := by
  have only {c : Command} (mem : t ∈ ticketsOf [c]) : c.ticket? = some t := by
    obtain ⟨c', mem, ticket⟩ := List.mem_filterMap.mp mem
    rwa [← List.mem_singleton.mp mem]
  have reply {c : Command} (ticket : c.ticket? = some t) (r : Reply) :
      t ∈ (c.replyTo (s.awaits c) r).map (·.1) := by
    rw [awaits_of_not_abandoned ticket awaited, replyTo, if_pos rfl, ticket]
    exact List.mem_singleton.mpr rfl
  cases h with
  | @applies now elapsed c =>
    have ticket := only mem
    have answers := s.broker.reply_isSome now elapsed (s.awaits c) c
    rw [ticket] at answers
    obtain ⟨r, applied⟩ := Option.isSome_iff_exists.mp answers
    rw [Broker.replies, applied, Option.toList_some, List.flatMap_singleton]
    exact reply ticket r
  | drops => exact reply (only mem) _
  | halts => cases only mem
  | _ => cases mem

theorem answered_of_popped (s : Scheduler) (actions : List (Action π)) {t : Ticket}
    (mem : t ∈ ticketsOf (s.popped actions)) (awaited : t ∉ (s.after actions).abandoned) :
    t ∈ (s.answered actions).map (·.1) := by
  induction actions generalizing s with
  | nil => cases mem
  | cons a rest ih =>
    have whole : s.answered (a :: rest) = s.answers a ++ (s.act a).answered rest := rfl
    have split : s.popped (a :: rest) = s.pops a ++ (s.act a).popped rest := rfl
    rw [split, ticketsOf_append] at mem
    rw [whole, List.map_append]
    rcases List.mem_append.mp mem with first | later
    · have before : t ∉ s.abandoned := fun h => awaited ((abandoned_after_iff _ _ _).mpr (.inl h))
      exact List.mem_append_left _ ((turn s a).settles first before)
    · exact List.mem_append_right _ (ih (s.act a) later awaited)

theorem Turn.awaited_eq (h : Turn s a put out events given s') {now elapsed : Nanos}
    {awaited : Bool} {c : Command} (mem : .command now elapsed awaited c ∈ events) :
    awaited = s.awaits c := by
  cases h with
  | applies =>
    cases List.mem_singleton.mp mem
    rfl
  | @happens e =>
    have same := List.mem_singleton.mp mem
    have none := e.2
    rw [← same] at none
    cases none
  | _ => cases mem

theorem awaited_of_carried (s : Scheduler) (actions : List (Action π)) {now elapsed : Nanos}
    {awaited : Bool} {c : Command} {t : Ticket} (ticket : c.ticket? = some t)
    (mem : .command now elapsed awaited c ∈ s.carried actions)
    (kept : t ∉ (s.after actions).abandoned) : awaited = true := by
  induction actions generalizing s with
  | nil => cases mem
  | cons a rest ih =>
    have whole : s.carried (a :: rest) = s.carries a ++ (s.act a).carried rest := rfl
    rw [whole] at mem
    rcases List.mem_append.mp mem with first | later
    · have before : t ∉ s.abandoned := fun h => kept ((abandoned_after_iff _ _ _).mpr (.inl h))
      rw [(turn s a).awaited_eq first, awaits_of_not_abandoned ticket before]
    · exact ih (s.act a) later kept

theorem Turn.tickets_eq (h : Turn s a put out events given s') :
    ∃ n, ticketsOf (put.map (·.2)) = List.range' s.tickets n ∧ s'.tickets = s.tickets + n := by
  cases h with
  | @posts p c => exact ⟨0, by simp [ticketsOf, c.2], rfl⟩
  | @requests p make => exact ⟨1, by simp [ticketsOf, make.2], rfl⟩
  | _ => exact ⟨0, rfl, rfl⟩

theorem accepted_tickets (s : Scheduler) (actions : List (Action π)) :
    ∃ n, ticketsOf ((s.accepted actions).map (·.2)) = List.range' s.tickets n ∧
      (s.after actions).tickets = s.tickets + n := by
  induction actions generalizing s with
  | nil => exact ⟨0, rfl, rfl⟩
  | cons a rest ih =>
    obtain ⟨m, first, next⟩ := (turn s a).tickets_eq
    obtain ⟨n, later, last⟩ := ih (s.act a)
    have whole : s.accepted (a :: rest) = s.accepts a ++ (s.act a).accepted rest := rfl
    refine ⟨m + n, ?_, ?_⟩
    · rw [whole, List.map_append, ticketsOf_append, first, later, next, List.range'_append_1]
    · change ((s.act a).after rest).tickets = _
      rw [last, next, Nat.add_assoc]

theorem Turn.replies_sublist (h : Turn s a put out events given s') :
    s'.replies.Sublist (s.replies ++ given) := by
  cases h with
  | applies | drops => exact List.Sublist.refl _
  | abandons | collects => exact List.filter_sublist.trans (List.sublist_append_left _ _)
  | _ => exact List.sublist_append_left _ _

theorem replies_after_sublist (s : Scheduler) (actions : List (Action π)) :
    (s.after actions).replies.Sublist (s.replies ++ s.answered actions) := by
  induction actions generalizing s with
  | nil => exact (List.append_nil _).symm ▸ List.Sublist.refl _
  | cons a rest ih =>
    have first := (turn s a).replies_sublist.append_right ((s.act a).answered rest)
    rw [List.append_assoc] at first
    exact (ih (s.act a)).trans first

theorem Turn.replies_kept (h : Turn s a put out events given s') {p : Ticket × Reply}
    (mem : p ∈ s.replies ++ given) (abandoned : a ≠ .abandon p.1) (collected : a ≠ .collect p.1) :
    p ∈ s'.replies := by
  have other {t : Ticket} (mem : p ∈ s.replies) (ne : t ≠ p.1) :
      p ∈ s.replies.filter (·.1 != t) :=
    List.mem_filter.mpr ⟨mem, bne_iff_ne.mpr ne.symm⟩
  cases h with
  | applies | drops => exact mem
  | @abandons t =>
    rw [List.append_nil] at mem
    exact other mem fun same => abandoned (congrArg _ same)
  | @collects t =>
    rw [List.append_nil] at mem
    exact other mem fun same => collected (congrArg _ same)
  | _ => rwa [List.append_nil] at mem

/-- An answer waits until it is collected or nobody awaits it any more. -/
theorem replies_after_kept (s : Scheduler) (actions : List (Action π)) {p : Ticket × Reply}
    (mem : p ∈ s.replies ++ s.answered actions) (abandoned : .abandon p.1 ∉ actions)
    (collected : .collect p.1 ∉ actions) : p ∈ (s.after actions).replies := by
  induction actions generalizing s with
  | nil => rwa [answered, Run.log, List.append_nil] at mem
  | cons a rest ih =>
    obtain ⟨first, later⟩ := not_or.mp (mt List.mem_cons.mpr abandoned)
    obtain ⟨first', later'⟩ := not_or.mp (mt List.mem_cons.mpr collected)
    refine ih (s.act a) ?_ later later'
    have whole : s.answered (a :: rest) = s.answers a ++ (s.act a).answered rest := rfl
    rw [whole, ← List.append_assoc] at mem
    rcases List.mem_append.mp mem with here | there
    · exact List.mem_append_left _ ((turn s a).replies_kept here (Ne.symm first) (Ne.symm first'))
    · exact List.mem_append_right _ there

theorem collect?_eq_some (once : (s.replies.map (·.1)).Nodup) {t : Ticket} {r : Reply} :
    (s.collect? t).map (·.1) = some r ↔ (t, r) ∈ s.replies := by
  have found : (s.collect? t).map (·.1) = s.replies.lookup t := by
    rw [collect?, Option.map_map]
    exact Option.map_id'
  rw [found, List.lookup_eq_some_iff]
  constructor
  · rintro ⟨front, back, split, -⟩
    rw [split]
    exact List.mem_append_right _ List.mem_cons_self
  · intro mem
    obtain ⟨front, back, split⟩ := List.append_of_mem mem
    refine ⟨front, back, split, fun p earlier => bne_iff_ne.mpr fun same => ?_⟩
    rw [split, List.map_append, List.nodup_append] at once
    exact once.2.2 p.1 (List.mem_map_of_mem earlier) t (by simp) same.symm

def Action.isWork : Action π → Bool
  | .work _ _ => true
  | _ => false

def works (actions : List (Action π)) : Nat := actions.countP Action.isWork

def closing (s : Scheduler) : Nat := if s.phase = .stopped then 0 else 1

theorem Turn.closing_le (h : Turn s a put out events given s') : s'.closing ≤ s.closing := by
  have still := h.stopped
  rw [closing, closing]
  split <;> split <;> simp_all

theorem Turn.progress (h : Turn s a put out events given s') (work : a.isWork)
    (waits : s.queue ≠ []) : s'.closing < s.closing + out.length := by
  have le := h.closing_le
  cases h with
  | applies | halts | drops => exact Nat.lt_succ_of_le le
  | closes stopping => simp [closing, stopping]
  | idle empty => exact absurd empty waits
  | refused _ tries =>
    cases a with
    | work => exact absurd rfl tries
    | _ => cases work
  | _ => cases work

/-- The worker takes out as many commands as stand in the queue in one step more than that. -/
theorem popped_of_works (s : Scheduler) (actions : List (Action π)) {n : Nat}
    (waiting : n ≤ s.queue.length) (enough : n + s.closing ≤ works actions) :
    n ≤ (s.popped actions).length := by
  induction actions generalizing s n with
  | nil =>
    change n + _ ≤ 0 at enough
    omega
  | cons a rest ih =>
    have whole : s.popped (a :: rest) = s.pops a ++ (s.act a).popped rest := rfl
    have fifo := congrArg List.length (turn s a).queue_eq
    have le := (turn s a).closing_le
    simp only [List.length_append, List.length_map] at fifo
    rw [works, List.countP_cons] at enough
    rw [whole, List.length_append]
    rcases Nat.eq_zero_or_pos n with rfl | positive
    · exact Nat.zero_le _
    · have left : n - (s.pops a).length ≤ (s.act a).queue.length := by omega
      have fewer : n - (s.pops a).length + (s.act a).closing ≤ works rest ∨
          n ≤ (s.pops a).length := by
        by_cases work : a.isWork
        · have waits : s.queue ≠ [] := List.ne_nil_of_length_pos (by omega)
          have less := (turn s a).progress work waits
          rw [if_pos work] at enough
          rw [works]
          omega
        · rw [if_neg work] at enough
          rw [works]
          omega
      rcases fewer with fewer | done
      · have later := ih (s.act a) left fewer
        omega
      · omega

end AgentBroker.Scheduler
