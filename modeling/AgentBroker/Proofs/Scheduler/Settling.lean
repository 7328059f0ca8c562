import AgentBroker.Broker.Timeline
import AgentBroker.Proofs.Scheduler.InOrder

/-!
# Settling

Worker and sweeper go on until nothing is left to do. What they do is a run like any other, and
behind it they rest.
-/

namespace AgentBroker

namespace Scheduler

variable {π : Type} {s : Scheduler}

/-- The steps in which the worker empties the queue. -/
def emptying (s : Scheduler) (now : Nanos) : List (Action π) :=
  List.replicate (s.queue.length + 2) (.work now 0)

theorem after_replicate (s : Scheduler) (n : Nat) (now : Nanos) :
    s.after (List.replicate n (.work now 0 : Action π)) = Nat.repeat (·.step now 0) n s := by
  induction n with
  | zero => rfl
  | succ n ih =>
    rw [List.replicate_succ', after, Run.last_concat, Nat.repeat, ← ih]
    rfl

theorem settle_eq (s : Scheduler) (now : Nanos) :
    s.settle now = s.after (s.emptying now : List (Action π)) :=
  (after_replicate s _ now).symm

theorem accepted_works (s : Scheduler) (n : Nat) (now : Nanos) :
    s.accepted (List.replicate n (.work now 0 : Action π)) = [] := by
  refine Run.log_eq_nil s _ fun before a later split => ?_
  have mem : a ∈ List.replicate n (.work now 0 : Action π) := by simp [split]
  rw [List.eq_of_mem_replicate mem, accepts]
  exact ite_self []

theorem queue_after_works (s : Scheduler) {n : Nat} (enough : s.queue.length < n) (now : Nanos) :
    (s.after (List.replicate n (.work now 0 : Action π))).queue = [] := by
  have closing : s.closing ≤ 1 := by
    rw [closing]
    split <;> omega
  have all : works (List.replicate n (.work now 0 : Action π)) = n := by
    rw [works, List.countP_replicate]
    rfl
  have popped := popped_of_works s (List.replicate n (.work now 0 : Action π)) (Nat.le_refl _)
    (by omega)
  have whole := congrArg List.length (popped_queue s (List.replicate n (.work now 0 : Action π)))
  rw [accepted_works] at whole
  simp only [List.length_append, List.map_nil, List.length_nil] at whole
  exact List.eq_nil_of_length_eq_zero (by omega)

theorem queue_emptying (s : Scheduler) (now : Nanos) :
    (s.after (s.emptying now : List (Action π))).queue = [] :=
  queue_after_works s (Nat.lt_add_of_pos_right Nat.two_pos) now

/-- The worker has nothing left to do. -/
structure Idle (s : Scheduler) : Prop where
  queue : s.queue = []
  phase : s.phase ≠ .stopping

theorem Idle.step_eq (idle : s.Idle) (now elapsed : Nanos) : s.step now elapsed = s := by
  cases phase : s.phase with
  | running => simp only [step, phase, idle.queue]
  | stopping => exact absurd phase idle.phase
  | stopped => simp only [step, phase, idle.queue]

theorem Idle.settle_eq (idle : s.Idle) (now : Nanos) : s.settle now = s := by
  rw [settle]
  generalize s.queue.length + 2 = n
  induction n with
  | zero => rfl
  | succ n ih => rw [Nat.repeat, ih, idle.step_eq]

theorem idle_settle (s : Scheduler) (now : Nanos) : (s.settle now).Idle := by
  -- With one step to go the queue is empty, and a stop may have been taken.
  let front := Nat.repeat (·.step now 0) (s.queue.length + 1) s
  have last : s.settle now = front.step now 0 := rfl
  have empty : front.queue = [] := by
    have worked := @queue_after_works Unit s _ (Nat.lt_succ_self _) now
    rwa [after_replicate] at worked
  by_cases stopping : front.phase = .stopping
  · have closed : front.step now 0 = { front with phase := .stopped } := by
      simp only [step, stopping]
    rw [last, closed]
    exact ⟨empty, by simp⟩
  · have idle : front.Idle := ⟨empty, stopping⟩
    rw [last, idle.step_eq]
    exact idle

end Scheduler

def Sweeper.due (w : Sweeper) (now : Nanos) : List (Scheduler.Action Unit) :=
  if w.next ≤ now then [.post () ⟨.expireIdle w.maxIdle, rfl⟩] else []

theorem Sweeper.sweep_eq (w : Sweeper) (now : Nanos) (s : Scheduler) :
    (w.sweep now s).2 = s.after (w.due now) := by
  rw [sweep, due]
  split
  · rfl
  · rfl

theorem Sweeper.interval_sweep (w : Sweeper) (now : Nanos) (s : Scheduler) :
    (w.sweep now s).1.interval = w.interval := by
  rw [sweep]
  split
  · rfl
  · rfl

theorem Sweeper.lt_next_sweep (w : Sweeper) (turns : 0 < w.interval) (now : Nanos)
    (s : Scheduler) : now < (w.sweep now s).1.next := by
  rw [sweep]
  split
  next due =>
    have next := Nat.lt_mul_div_succ (now - w.next) turns
    rw [Nat.mul_comm] at next
    exact (Nat.sub_lt_iff_lt_add' due).mp next
  next early => exact Nat.not_le.mp early

namespace Timeline

/-- What worker and sweeper do until nothing is left to do. -/
def settling (t : Timeline) : List (Scheduler.Action Unit) :=
  match t.sweeper with
  | none => t.scheduler.emptying t.now
  | some w =>
    let swept := t.scheduler.emptying t.now ++ w.due t.now
    swept ++ (t.scheduler.after swept).emptying t.now

theorem settle_eq (t : Timeline) : t.settle.scheduler = t.scheduler.after t.settling := by
  rw [settle, settling]
  cases t.sweeper with
  | none => exact t.scheduler.settle_eq t.now
  | some w =>
    have first := @Scheduler.settle_eq Unit t.scheduler t.now
    have swept := w.sweep_eq t.now (t.scheduler.settle t.now)
    rw [first, ← Scheduler.after_append] at swept
    have last := @Scheduler.settle_eq Unit
      (t.scheduler.after (t.scheduler.emptying t.now ++ w.due t.now)) t.now
    rw [← Scheduler.after_append] at last
    dsimp only
    rw [first, swept]
    exact last

theorem queue_settling (t : Timeline) : (t.scheduler.after t.settling).queue = [] := by
  rw [settling]
  cases t.sweeper with
  | none => exact t.scheduler.queue_emptying t.now
  | some w =>
    dsimp only
    rw [Scheduler.after_append]
    exact Scheduler.queue_emptying _ t.now

/-- Worker and sweeper have nothing left to do. -/
structure Rests (t : Timeline) : Prop where
  worker : t.scheduler.Idle
  sweeper : ∀ w ∈ t.sweeper, t.now < w.next

theorem idle_settle (t : Timeline) : t.settle.scheduler.Idle := by
  rw [settle]
  cases t.sweeper with
  | none => exact t.scheduler.idle_settle t.now
  | some w => exact Scheduler.idle_settle _ t.now

theorem exists_sweeper_settle {t : Timeline} {w : Sweeper} (mem : w ∈ t.settle.sweeper) :
    ∃ old ∈ t.sweeper, ∃ s, w = (old.sweep t.now s).1 := by
  rw [settle] at mem
  cases sweeper : t.sweeper with
  | none =>
    simp only [sweeper] at mem
    cases mem
  | some old =>
    simp only [sweeper] at mem
    cases mem
    exact ⟨old, rfl, _, rfl⟩

theorem now_settle (t : Timeline) : t.settle.now = t.now := by
  rw [settle]
  cases t.sweeper with
  | none => rfl
  | some w => rfl

theorem rests_settle {t : Timeline} (turns : ∀ w ∈ t.sweeper, 0 < w.interval) :
    t.settle.Rests := by
  refine ⟨t.idle_settle, fun w mem => ?_⟩
  obtain ⟨old, had, s, rfl⟩ := exists_sweeper_settle mem
  rw [now_settle]
  exact old.lt_next_sweep (turns old had) t.now s

theorem Rests.settle_eq {t : Timeline} (rests : t.Rests) : t.settle = t := by
  have still := rests.worker.settle_eq t.now
  rw [settle]
  cases sweeper : t.sweeper with
  | none =>
    simp only [still]
    rw [← sweeper]
  | some w =>
    have early : ¬ w.next ≤ t.now := Nat.not_le.mpr (rests.sweeper w sweeper)
    simp only [Sweeper.sweep, if_neg early, still]
    rw [← sweeper]

theorem mem_settling {t : Timeline} {a : Scheduler.Action Unit} (mem : a ∈ t.settling) :
    a = .work t.now 0 ∨ ∃ maxIdle, a = .post () ⟨.expireIdle maxIdle, rfl⟩ := by
  have work {s : Scheduler} (mem : a ∈ (s.emptying t.now : List (Scheduler.Action Unit))) :
      a = .work t.now 0 := List.eq_of_mem_replicate mem
  rw [settling] at mem
  cases sweeper : t.sweeper with
  | none =>
    rw [sweeper] at mem
    exact .inl (work mem)
  | some w =>
    rw [sweeper] at mem
    rcases List.mem_append.mp mem with swept | last
    · rcases List.mem_append.mp swept with first | due
      · exact .inl (work first)
      · rw [Sweeper.due] at due
        split at due
        · exact .inr ⟨w.maxIdle, List.mem_singleton.mp due⟩
        · cases due
    · exact .inl (work last)

section

variable {t : Timeline} {make : { make : Ticket → Command // ∀ n, (make n).ticket? = some n }}

def asking (t : Timeline)
    (make : { make : Ticket → Command // ∀ n, (make n).ticket? = some n }) : Timeline :=
  { t with scheduler := t.scheduler.act (.request () make) }

def requesting (t : Timeline)
    (make : { make : Ticket → Command // ∀ n, (make n).ticket? = some n }) :
    List (Scheduler.Action Unit) :=
  if t.scheduler.isStopped then []
  else .request () make :: (t.asking make).settling ++ [.collect t.scheduler.tickets]

theorem request_stopped (stopped : t.scheduler.isStopped) :
    t.request make.1 = (.stopped, t) := by
  rw [request, Scheduler.request?, Scheduler.enqueue?]
  have still : { t.scheduler with tickets := t.scheduler.tickets + 1 }.isStopped = true := stopped
  rw [if_pos still]
  rfl

theorem request_open (isOpen : t.scheduler.isStopped = false) :
    t.request make.1 =
      match (t.asking make).settle.scheduler.collect? t.scheduler.tickets with
      | some (r, scheduler) => (r, { (t.asking make).settle with scheduler })
      | none => (.stopped, (t.asking make).settle) := by
  have taken : t.scheduler.request? make.1 =
      some (t.scheduler.tickets, (t.asking make).scheduler) := by
    have still : ¬ { t.scheduler with tickets := t.scheduler.tickets + 1 }.isStopped = true :=
      Bool.eq_false_iff.mp isOpen
    rw [asking, Scheduler.act, Scheduler.request?, Scheduler.enqueue?, if_neg still]
    rfl
  rw [request, taken]
  rfl

theorem request_eq : (t.request make.1).2.scheduler = t.scheduler.after (t.requesting make) := by
  rw [requesting]
  by_cases stopped : t.scheduler.isStopped
  · rw [request_stopped stopped, if_pos stopped]
    rfl
  · have settled := (t.asking make).settle_eq
    have whole : t.scheduler.after
        (.request () make :: (t.asking make).settling ++ [.collect t.scheduler.tickets]) =
        (t.asking make).settle.scheduler.act
          (.collect t.scheduler.tickets : Scheduler.Action Unit) := by
      rw [Scheduler.after_append, settled]
      rfl
    rw [request_open (Bool.eq_false_iff.mpr stopped), if_neg stopped, whole, Scheduler.act]
    cases (t.asking make).settle.scheduler.collect? t.scheduler.tickets with
    | none => rfl
    | some found => rfl

end

end Timeline

end AgentBroker
