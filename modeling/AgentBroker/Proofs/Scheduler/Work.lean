import AgentBroker.Broker.Scheduler
import AgentBroker.Proofs.Broker.History
import Mathlib.Data.List.TakeWhile

/-!
# The queue and its worker

Producers bring commands to the queue and the worker takes them out, each at its own pace. An action
is one step of one of them, and a run interleaves their steps in any way.
-/

namespace AgentBroker

namespace Command

def isStop : Command → Bool
  | .stop => true
  | _ => false

/-- The commands in front of the first stop. -/
def untilStop (cs : List Command) : List Command := cs.takeWhile fun c => !c.isStop

/-- The commands behind the first stop. -/
def behindStop (cs : List Command) : List Command := (cs.dropWhile fun c => !c.isStop).tail

variable {c : Command} {xs ys : List Command}

theorem eq_stop (h : c.isStop) : c = .stop := by
  cases c with
  | stop => rfl
  | _ => cases h

theorem untilStop_cons (goes : ¬ c.isStop) (cs : List Command) :
    untilStop (c :: cs) = c :: untilStop cs :=
  List.takeWhile_cons_of_pos (by simpa using goes)

theorem behindStop_cons (goes : ¬ c.isStop) (cs : List Command) :
    behindStop (c :: cs) = behindStop cs := by
  rw [behindStop, List.dropWhile_cons_of_pos (by simpa using goes)]
  rfl

theorem untilStop_eq_self (h : .stop ∉ xs) : untilStop xs = xs := by
  refine List.takeWhile_eq_self_iff.mpr fun c mem => ?_
  have goes : ¬ c.isStop := fun stop => h (eq_stop stop ▸ mem)
  simpa using goes

theorem untilStop_append (h : .stop ∈ xs) : untilStop (xs ++ ys) = untilStop xs := by
  induction xs with
  | nil => cases h
  | cons c cs ih =>
    by_cases stop : c.isStop
    · rw [eq_stop stop]
      rfl
    · have later : .stop ∈ cs := by
        rcases List.mem_cons.mp h with rfl | later
        · exact absurd rfl stop
        · exact later
      rw [List.cons_append, untilStop_cons stop, untilStop_cons stop, ih later]

theorem behindStop_append (h : .stop ∈ xs) : behindStop (xs ++ ys) = behindStop xs ++ ys := by
  induction xs with
  | nil => cases h
  | cons c cs ih =>
    by_cases stop : c.isStop
    · rw [eq_stop stop]
      rfl
    · have later : .stop ∈ cs := by
        rcases List.mem_cons.mp h with rfl | later
        · exact absurd rfl stop
        · exact later
      rw [List.cons_append, behindStop_cons stop, behindStop_cons stop, ih later]

theorem untilStop_append_of_not_mem (h : .stop ∉ xs) :
    untilStop (xs ++ ys) = xs ++ untilStop ys :=
  List.takeWhile_append_of_pos (List.takeWhile_eq_self_iff.mp (untilStop_eq_self h))

theorem untilStop_prefix_of (h : xs <+: ys) : untilStop xs <+: untilStop ys := by
  obtain ⟨zs, rfl⟩ := h
  by_cases stop : .stop ∈ xs
  · exact ⟨[], (List.append_nil _).trans (untilStop_append stop).symm⟩
  · rw [untilStop_eq_self stop, untilStop_append_of_not_mem stop]
    exact List.prefix_append _ _

theorem behindStop_append_of_not_mem (h : .stop ∉ xs) :
    behindStop (xs ++ ys) = behindStop ys := by
  have goes := List.takeWhile_eq_self_iff.mp (untilStop_eq_self h)
  rw [behindStop, List.dropWhile_append_of_pos goes]
  rfl

theorem behindStop_eq_nil (h : .stop ∉ xs) : behindStop xs = [] := by
  induction xs with
  | nil => rfl
  | cons c cs ih =>
    obtain ⟨first, later⟩ := not_or.mp (mt List.mem_cons.mpr h)
    have goes : ¬ c.isStop := fun stop => first (eq_stop stop).symm
    rw [behindStop_cons goes, ih later]

theorem behindStop_sublist_of (h : xs <+: ys) : (behindStop xs).Sublist (behindStop ys) := by
  obtain ⟨zs, rfl⟩ := h
  by_cases stop : .stop ∈ xs
  · rw [behindStop_append stop]
    exact List.sublist_append_left _ _
  · rw [behindStop_eq_nil stop]
    exact List.nil_sublist _

theorem untilStop_append_behindStop (xs : List Command) :
    (untilStop xs ++ behindStop xs).Sublist xs := by
  have whole : untilStop xs ++ xs.dropWhile (fun c => !c.isStop) = xs :=
    List.takeWhile_append_dropWhile
  have fewer := (List.tail_sublist (xs.dropWhile fun c => !c.isStop)).append_left (untilStop xs)
  rwa [whole] at fewer

def replyTo (awaited : Bool) (c : Command) (r : Reply) : List (Ticket × Reply) :=
  if awaited then c.ticket?.toList.map (·, r) else []

end Command

namespace Broker

def Event.command? : Event → Option Command
  | .command _ _ _ c => some c
  | _ => none

def replies (b : Broker) : Event → List (Ticket × Reply)
  | .command now elapsed awaited c =>
    (b.apply now elapsed awaited c).1.toList.flatMap (c.replyTo awaited)
  | _ => []

def commands (events : List Event) : List Command := events.filterMap Event.command?

theorem reply_isSome (b : Broker) (now elapsed : Nanos) (awaited : Bool) (c : Command) :
    (b.apply now elapsed awaited c).1.isSome = c.ticket?.isSome := by
  cases c <;> rfl

theorem replies_eq_nil {b : Broker} {e : Event} (h : e.command? = none) : b.replies e = [] := by
  cases e with
  | command => cases h
  | _ => rfl

end Broker

namespace Scheduler

open Command

variable {π : Type} {s s' : Scheduler}

/-- A step of a producer, of the worker, or of those who use the mailboxes. Producers are told apart
by a name of any type. -/
inductive Action (π : Type) where
  /-- A producer brings a command without an answer. -/
  | post (producer : π) (c : { c : Command // c.ticket? = none })
  /-- A producer brings a request, which is made with its ticket. -/
  | request (producer : π) (make : { make : Ticket → Command // ∀ t, (make t).ticket? = some t })
  /-- Whoever has brought the request awaits the answer no longer. -/
  | abandon (t : Ticket)
  | collect (t : Ticket)
  | work (now elapsed : Nanos)
  /-- Something happens at a mailbox. -/
  | outside (e : { e : Broker.Event // e.command? = none })

def act (s : Scheduler) : Action π → Scheduler
  | .post _ c => s.enqueue c
  | .request _ make => ((s.request? make.1).map (·.2)).getD s
  | .abandon t => s.abandon t
  | .collect t => ((s.collect? t).map (·.2)).getD s
  | .work now elapsed => s.step now elapsed
  | .outside e => { s with broker := s.broker.after e }

def brings (s : Scheduler) : Action π → List (π × Command)
  | .post producer c => [(producer, c)]
  | .request producer make => [(producer, make.1 s.tickets)]
  | _ => []

def accepts (s : Scheduler) (a : Action π) : List (π × Command) :=
  if s.isStopped then [] else s.brings a

def pops (s : Scheduler) : Action π → List Command
  | .work _ _ => if s.phase = .stopping then [] else s.queue.take 1
  | _ => []

def carries (s : Scheduler) : Action π → List Broker.Event
  | .work now elapsed =>
    if s.phase = .running then
      (untilStop (s.queue.take 1)).map fun c => .command now elapsed (s.awaits c) c
    else []
  | .outside e => [e]
  | _ => []

def answers (s : Scheduler) : Action π → List (Ticket × Reply)
  | .work now elapsed => (s.step now elapsed).replies.drop s.replies.length
  | _ => []

theorem answer_eq (s : Scheduler) (c : Command) (r : Reply) :
    s.answer c r = { s with replies := s.replies ++ c.replyTo (s.awaits c) r } := by
  rw [answer, Command.replyTo]
  cases ticket : c.ticket? with
  | none =>
    rw [Option.toList_none, List.map_nil, ite_self, List.append_nil]
  | some t =>
    dsimp only
    split
    · rfl
    · rw [List.append_nil]

theorem perform_eq (s : Scheduler) (now elapsed : Nanos) (c : Command) :
    s.perform now elapsed c =
      { s with
        broker := s.broker.after (.command now elapsed (s.awaits c) c)
        replies := s.replies ++ s.broker.replies (.command now elapsed (s.awaits c) c) } := by
  rw [perform, Broker.after, Broker.replies]
  split
  next r broker applied =>
    rw [answer_eq, applied, Option.toList_some, List.flatMap_singleton]
    rfl
  next broker applied =>
    rw [applied, Option.toList_none, List.flatMap_nil, List.append_nil]

theorem step_cons {c : Command} {rest : List Command} (running : s.phase = .running)
    (first : s.queue = c :: rest) (goes : c ≠ .stop) (now elapsed : Nanos) :
    s.step now elapsed = { s with
      broker := s.broker.after (.command now elapsed (s.awaits c) c)
      queue := rest
      replies := s.replies ++ s.broker.replies (.command now elapsed (s.awaits c) c) } := by
  have applied : s.step now elapsed = { s with queue := rest }.perform now elapsed c := by
    cases c with
    | stop => exact absurd rfl goes
    | _ => simp only [step, running, first]
  rw [applied, perform_eq]
  rfl

/-- All that an action can do: what it puts into the queue and takes out of it, what it does to the
broker, and the answers that it gives. -/
inductive Turn (s : Scheduler) : Action π → List (π × Command) → List Command →
    List Broker.Event → List (Ticket × Reply) → Scheduler → Prop
  | posts {p : π} {c : { c : Command // c.ticket? = none }} (isOpen : s.phase ≠ .stopped) :
    Turn s (.post p c) [(p, c)] [] [] [] { s with queue := s.queue ++ [c.1] }
  | requests {p : π} {make : { make : Ticket → Command // ∀ t, (make t).ticket? = some t }}
      (isOpen : s.phase ≠ .stopped) :
    Turn s (.request p make) [(p, make.1 s.tickets)] [] [] []
      { s with queue := s.queue ++ [make.1 s.tickets], tickets := s.tickets + 1 }
  | refused {a : Action π} (closed : s.phase = .stopped) (tries : s.brings a ≠ []) :
    Turn s a [] [] [] [] s
  | abandons {t : Ticket} : Turn s (.abandon t) [] [] [] [] (s.abandon t)
  | collects {t : Ticket} :
    Turn s (.collect t) [] [] [] [] { s with replies := s.replies.filter (·.1 != t) }
  | happens {e : { e : Broker.Event // e.command? = none }} :
    Turn s (.outside e) [] [] [e.1] [] { s with broker := s.broker.after e }
  | idle {now elapsed : Nanos} (empty : s.queue = []) : Turn s (.work now elapsed) [] [] [] [] s
  | applies {now elapsed : Nanos} {c : Command} {rest : List Command} (running : s.phase = .running)
      (first : s.queue = c :: rest) (goes : ¬ c.isStop) :
    Turn s (.work now elapsed) [] [c] [.command now elapsed (s.awaits c) c]
      (s.broker.replies (.command now elapsed (s.awaits c) c))
      { s with
        broker := s.broker.after (.command now elapsed (s.awaits c) c)
        queue := rest
        replies := s.replies ++ s.broker.replies (.command now elapsed (s.awaits c) c) }
  | halts {now elapsed : Nanos} {rest : List Command} (running : s.phase = .running)
      (first : s.queue = .stop :: rest) :
    Turn s (.work now elapsed) [] [.stop] [] [] { s with queue := rest, phase := .stopping }
  | closes {now elapsed : Nanos} (stopping : s.phase = .stopping) :
    Turn s (.work now elapsed) [] [] [] [] { s with phase := .stopped }
  | drops {now elapsed : Nanos} {c : Command} {rest : List Command} (stopped : s.phase = .stopped)
      (first : s.queue = c :: rest) :
    Turn s (.work now elapsed) [] [c] [] (c.replyTo (s.awaits c) .stopped)
      { s with queue := rest, replies := s.replies ++ c.replyTo (s.awaits c) .stopped }

theorem collect_eq (s : Scheduler) (t : Ticket) :
    ((s.collect? t).map (·.2)).getD s = { s with replies := s.replies.filter (·.1 != t) } := by
  rw [collect?]
  cases found : s.replies.lookup t with
  | some r => rfl
  | none =>
    have none (p : Ticket × Reply) (mem : p ∈ s.replies) : (p.1 != t) = true := by
      have other := List.lookup_eq_none_iff.mp found p mem
      rwa [bne_comm] at other
    rw [List.filter_eq_self.mpr none]
    rfl

theorem enqueue?_eq (s : Scheduler) (c : Command) :
    s.enqueue? c =
      if s.phase = .stopped then none else some { s with queue := s.queue ++ [c] } := by
  simp only [enqueue?, isStopped, beq_iff_eq]

theorem turn_work (s : Scheduler) (now elapsed : Nanos) :
    Turn s (.work now elapsed : Action π) [] (s.pops (.work now elapsed : Action π))
      (s.carries (.work now elapsed : Action π)) (s.answers (.work now elapsed : Action π))
      (s.step now elapsed) := by
  simp only [pops, carries, answers]
  cases phase : s.phase with
  | running =>
    rw [if_neg (by simp), if_pos rfl]
    cases queue : s.queue with
    | nil =>
      have still : s.step now elapsed = s := by simp only [step, phase, queue]
      rw [still, List.drop_length]
      exact .idle queue
    | cons c rest =>
      have next : (c :: rest).take 1 = [c] := rfl
      rw [next]
      by_cases stop : c.isStop
      · cases eq_stop stop
        have halted : s.step now elapsed = { s with phase := .stopping, queue := rest } := by
          simp only [step, phase, queue]
        rw [halted, List.drop_length]
        exact .halts phase queue
      · have goes : c ≠ .stop := fun same => stop (same ▸ rfl)
        rw [step_cons phase queue goes now elapsed, untilStop_cons stop]
        dsimp only
        rw [List.drop_left]
        exact .applies phase queue stop
  | stopping =>
    rw [if_pos rfl, if_neg (by simp)]
    have closed : s.step now elapsed = { s with phase := .stopped } := by simp only [step, phase]
    rw [closed, List.drop_length]
    exact .closes phase
  | stopped =>
    rw [if_neg (by simp), if_neg (by simp)]
    cases queue : s.queue with
    | nil =>
      have still : s.step now elapsed = s := by simp only [step, phase, queue]
      rw [still, List.drop_length]
      exact .idle queue
    | cons c rest =>
      have dropped : s.step now elapsed = { s with queue := rest }.answer c .stopped := by
        simp only [step, phase, queue]
      rw [dropped, answer_eq]
      dsimp only
      rw [List.drop_left]
      exact .drops phase queue

theorem turn (s : Scheduler) (a : Action π) :
    Turn s a (s.accepts a) (s.pops a) (s.carries a) (s.answers a) (s.act a) := by
  have accepts_eq : s.accepts a = if s.phase = .stopped then [] else s.brings a := by
    simp only [accepts, isStopped, beq_iff_eq]
  rw [accepts_eq]
  cases a with
  | post p c =>
    rw [act, enqueue, enqueue?_eq]
    split
    next closed => exact .refused closed (List.cons_ne_nil _ _)
    next isOpen => exact .posts isOpen
  | request p make =>
    rw [act, request?, enqueue?_eq]
    split
    next closed => exact .refused closed (List.cons_ne_nil _ _)
    next isOpen => exact .requests isOpen
  | abandon t =>
    simp only [brings, ite_self]
    exact .abandons
  | collect t =>
    simp only [brings, ite_self]
    rw [act, collect_eq]
    exact .collects
  | work now elapsed =>
    simp only [brings, ite_self]
    exact turn_work s now elapsed
  | outside e =>
    simp only [brings, ite_self]
    exact .happens

end Scheduler

end AgentBroker
