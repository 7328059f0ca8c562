import AgentBroker.Proofs.Broker.Delivery
import AgentBroker.Proofs.Scheduler.Requests

/-!
# What comes into a mailbox

A mailbox is a queue: what comes into it goes behind what waits there. Nothing comes before somebody
has been admitted with the mailbox.
-/

namespace AgentBroker

/-- The command wants an agent to be admitted with the mailbox. -/
def Command.claims (channel : Channel) : Command → Bool
  | .connect _ c _ => c == channel
  | _ => false

theorem Command.claims_connect (agent : String) (channel : Channel) (ticket : Ticket) :
    (Command.connect agent channel ticket).claims channel :=
  beq_self_eq_true channel

/-- Something is taken out of the mailbox, or nobody reads it any more. -/
def Broker.Event.empties (channel : Channel) : Broker.Event → Bool
  | .close c | .take c | .takeFirst c => c == channel
  | _ => false

/-- The action neither claims nor empties the mailbox. -/
def Scheduler.Action.Respects {π : Type} (channel : Channel) : Scheduler.Action π → Prop
  | .post _ c => c.1.claims channel = false
  | .request _ make => ∀ t, (make.1 t).claims channel = false
  | .outside e => e.1.empties channel = false
  | _ => True

namespace Mailboxes

variable {m : Mailboxes} {channel c : Channel}

theorem contents_filter (apart : (c == channel) = false) :
    ((m.waiting.filter (·.1 != c)).filter (·.1 == channel)) =
      m.waiting.filter (·.1 == channel) := by
  refine (List.filter_filter).trans (List.filter_congr fun p _ => ?_)
  by_cases own : p.1 = channel
  · simp [own, bne, Ne.symm (ne_of_beq_false apart)]
  · simp [own]

theorem takeFirst?_eq_some {n : Notice} {m' : Mailboxes} (h : m.takeFirst? c = some (n, m')) :
    ∃ front back, m.waiting = front ++ (c, n) :: back ∧ (∀ p ∈ front, p.1 ≠ c) ∧
      m' = { m with waiting := front ++ back } := by
  rw [takeFirst?, Option.map_eq_some_iff] at h
  obtain ⟨p, found, same⟩ := h
  obtain ⟨own, front, back, split, others⟩ := List.find?_eq_some_iff_append.mp found
  have first : p = (c, n) := Prod.ext (eq_of_beq own) (congrArg Prod.fst same)
  have apart (p : Channel × Notice) (mem : p ∈ front) : p.1 ≠ c := by
    simpa using others p mem
  subst first
  refine ⟨front, back, split, apart, (congrArg Prod.snd same).symm.trans ?_⟩
  have erased : (front ++ (c, n) :: back).eraseP (·.1 == c) = front ++ back := by
    rw [List.eraseP_append_right _ fun p mem => by simpa using apart p mem,
      List.eraseP_cons, beq_self_eq_true, cond_true]
  rw [split, erased]

theorem contents_takeFirst?_none (h : m.takeFirst? c = none) : m.contents c = [] := by
  rw [takeFirst?, Option.map_eq_none_iff, List.find?_eq_none] at h
  rw [contents, List.map_eq_nil_iff, List.filter_eq_nil_iff]
  exact h

theorem contents_takeFirst? {n : Notice} {m' : Mailboxes} (h : m.takeFirst? c = some (n, m')) :
    m.contents c = n :: m'.contents c := by
  obtain ⟨front, back, split, apart, rfl⟩ := takeFirst?_eq_some h
  have none : front.filter (·.1 == c) = [] :=
    List.filter_eq_nil_iff.mpr fun p mem => by simpa using apart p mem
  simp only [contents, split, List.filter_append, none, List.nil_append, List.filter_cons,
    beq_self_eq_true, if_true, List.map_cons]

theorem contents_takeFirst?_apart {n : Notice} {m' : Mailboxes}
    (h : m.takeFirst? c = some (n, m')) (apart : (c == channel) = false) :
    m'.contents channel = m.contents channel := by
  obtain ⟨front, back, split, -, rfl⟩ := takeFirst?_eq_some h
  simp [contents, split, apart]

end Mailboxes

namespace Broker

variable {b : Broker} {channel : Channel} {e : Event} {events : List Event}

def arrivals (channel : Channel) (b : Broker) (e : Event) : List Notice :=
  ((b.posted e).filter (·.1 == channel)).map (·.2)

def arrived (channel : Channel) (b : Broker) (events : List Event) : List Notice :=
  Run.log after (arrivals channel) b events

theorem contents_after (kept : e.empties channel = false) :
    (b.after e).mailboxes.contents channel =
      b.mailboxes.contents channel ++ b.arrivals channel e := by
  cases e with
  | command now elapsed awaited c =>
    rw [Mailboxes.contents, waiting_after, List.filter_append, List.map_append]
    rfl
  | close c =>
    refine Eq.trans ?_ (List.append_nil _).symm
    exact congrArg (List.map (·.2)) (Mailboxes.contents_filter kept)
  | take c =>
    refine Eq.trans ?_ (List.append_nil _).symm
    exact congrArg (List.map (·.2)) (Mailboxes.contents_filter kept)
  | takeFirst c =>
    refine Eq.trans ?_ (List.append_nil _).symm
    rw [after, mapMailboxes]
    dsimp only
    cases taken : b.mailboxes.takeFirst? c with
    | none => rfl
    | some found => exact Mailboxes.contents_takeFirst?_apart taken kept
  | hold c => exact (List.append_nil _).symm
  | release c => exact (List.append_nil _).symm

theorem contents_last (kept : ∀ e ∈ events, e.empties channel = false) :
    (Run.last after b events).mailboxes.contents channel =
      b.mailboxes.contents channel ++ b.arrived channel events := by
  induction events generalizing b with
  | nil => exact (List.append_nil _).symm
  | cons e rest ih =>
    have later := @ih (b.after e) fun e' mem => kept e' (List.mem_cons_of_mem _ mem)
    rw [contents_after (kept e List.mem_cons_self), List.append_assoc] at later
    exact later

theorem arrivals_eq_nil (unused : b.UsedOnlyBy channel fun _ => False) :
    b.arrivals channel e = [] := by
  rw [arrivals, List.map_eq_nil_iff, List.filter_eq_nil_iff]
  intro p mem own
  obtain ⟨a, session⟩ := session_of_mem_posted mem
  exact unused a (session.trans (congrArg some (eq_of_beq own)))

theorem claims_of_admission? {other : String} (admission : e.admission? = some (other, channel)) :
    ∃ c, e.command? = some c ∧ c.claims channel := by
  rw [Event.admission?.eq_def] at admission
  split at admission
  · cases admission
    exact ⟨_, rfl, Command.claims_connect _ _ _⟩
  · cases admission

theorem arrived_eq_nil (unused : b.UsedOnlyBy channel fun _ => False)
    (unclaimed : ∀ c ∈ commands events, c.claims channel = false) :
    b.arrived channel events = [] ∧
      (Run.last after b events).UsedOnlyBy channel fun _ => False := by
  have free (e : Event) (mem : e ∈ events) (other : String) :
      e.admission? = some (other, channel) → False := by
    intro admission
    obtain ⟨c, brings, claims⟩ := claims_of_admission? admission
    have apart := unclaimed c (List.mem_filterMap.mpr ⟨e, mem, brings⟩)
    rw [claims] at apart
    cases apart
  refine ⟨Run.log_eq_nil b events fun before e later split => arrivals_eq_nil ?_,
    unused.run events free⟩
  exact unused.run before fun e' mem => free e' (split ▸ List.mem_append_left _ mem)

end Broker

namespace Scheduler

variable {π : Type} {s : Scheduler} {a : Action π} {actions : List (Action π)} {channel : Channel}

theorem outside_of_mem_carried {e : Broker.Event} (mem : e ∈ s.carried actions)
    (none : e.command? = none) : .outside ⟨e, none⟩ ∈ actions := by
  obtain ⟨before, a, later, rfl, carries⟩ := Run.exists_of_mem_log mem
  cases a with
  | outside e' =>
    cases List.mem_singleton.mp carries
    exact List.mem_append_right _ List.mem_cons_self
  | work now elapsed =>
    dsimp only [Scheduler.carries] at carries
    split at carries
    · obtain ⟨c, -, rfl⟩ := List.mem_map.mp carries
      cases none
    · cases carries
  | _ => cases carries

theorem kept_of_carried {e : Broker.Event} (mem : e ∈ s.carried actions)
    (kept : ∀ e, .outside e ∈ actions → e.1.empties channel = false) :
    e.empties channel = false := by
  cases happens : e.command? with
  | some c =>
    cases e with
    | command => rfl
    | _ => cases happens
  | none => exact kept _ (outside_of_mem_carried mem happens)

theorem Action.Respects.brings (h : a.Respects channel) {p : π × Command} (mem : p ∈ s.brings a) :
    p.2.claims channel = false := by
  cases a with
  | post producer c =>
    cases List.mem_singleton.mp mem
    exact h
  | request producer make =>
    cases List.mem_singleton.mp mem
    exact h s.tickets
  | _ => cases mem

end Scheduler

end AgentBroker
