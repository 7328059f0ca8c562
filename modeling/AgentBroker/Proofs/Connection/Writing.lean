import AgentBroker.Proofs.Broker.Arrivals
import AgentBroker.Proofs.Connection.Conveyance

/-!
# Reading and writing in turns

The reader of a session leaves the mailboxes alone. The writer takes one notice at a time out of its
own; writing all that waits there is the same as taking one notice after the other until none is
left.
-/

namespace AgentBroker

open AgentBroker.Frame Wire

namespace Timeline

variable {t : Timeline}

theorem enqueue_mapMailboxes (c : Command) (f : Mailboxes → Mailboxes) :
    ((t.mapMailboxes f).enqueue c).2 = (t.enqueue c).2.mapMailboxes f := by
  rw [enqueue, enqueue, Scheduler.enqueue?, Scheduler.enqueue?]
  have same : (t.mapMailboxes f).scheduler.isStopped = t.scheduler.isStopped := rfl
  rw [same]
  cases t.scheduler.isStopped with
  | true => rfl
  | false => rfl

theorem broker_enqueue (c : Command) : (t.enqueue c).2.broker = t.broker := by
  rw [enqueue, Scheduler.enqueue?]
  cases t.scheduler.isStopped with
  | true => rfl
  | false => rfl

end Timeline

namespace Mailboxes

variable {m m' : Mailboxes} {c : Channel} {n : Notice}

theorem held_takeFirst? (h : m.takeFirst? c = some (n, m')) : m'.held = m.held := by
  obtain ⟨front, back, -, -, rfl⟩ := takeFirst?_eq_some h
  rfl

theorem take_takeFirst? (h : m.takeFirst? c = some (n, m')) : (m'.take c).2 = (m.take c).2 := by
  obtain ⟨front, back, split, -, rfl⟩ := takeFirst?_eq_some h
  simp [take, split]

end Mailboxes

namespace Session

variable {s : Session} {t : Timeline} {n : Notice} {m : Mailboxes}

/-- The writer takes the notice that has waited longest and makes up its frame. The session ends
with a notice that cannot be written, and when none will come any more. -/
def fetch (s : Session) (t : Timeline) : Bytes × Session × Timeline :=
  if s.isOpen then
    match t.broker.mailboxes.takeFirst? s.channel with
    | none => if s.isDrained t then ([], s.close t) else ([], s, t)
    | some (n, mailboxes) =>
      let t := t.mapMailboxes fun _ => mailboxes
      match write? s.maxFrame (encode n) with
      | .ok bytes => (bytes, s, t)
      | .error _ => ([], s.close t)
  else ([], s, t)

/-- All that the writer can do at once. -/
inductive Fetch (s : Session) (t : Timeline) : Bytes × Session × Timeline → Prop
  | rests (none : s.isOpen → t.broker.mailboxes.takeFirst? s.channel = none) :
      Fetch s t ([], s, t)
  | takes {n : Notice} {m : Mailboxes} (isOpen : s.isOpen)
      (first : t.broker.mailboxes.takeFirst? s.channel = some (n, m))
      (allowed : Allowed s.maxFrame (encode n)) :
      Fetch s t (framed (encode n), s, t.mapMailboxes fun _ => m)
  | ends (none : t.broker.mailboxes.takeFirst? s.channel = none) (drained : s.isDrained t) :
      Fetch s t ([], s.close t)
  | breaks {n : Notice} {m : Mailboxes}
      (first : t.broker.mailboxes.takeFirst? s.channel = some (n, m))
      (above : ¬ Allowed s.maxFrame (encode n)) :
      Fetch s t ([], s.close (t.mapMailboxes fun _ => m))

theorem fetch_eq (s : Session) (t : Timeline) : Fetch s t (s.fetch t) := by
  rw [fetch]
  split
  next isOpen =>
    split
    next none =>
      split
      next drained => exact .ends none drained
      · exact .rests fun _ => none
    next n m first =>
      by_cases allowed : Allowed s.maxFrame (encode n)
      · rw [write?_eq_ok allowed]
        exact .takes isOpen first allowed
      · rw [write?_eq_error allowed]
        exact .breaks first allowed
  next closed => exact .rests fun isOpen => absurd isOpen closed

theorem isOpen_close (s : Session) (t : Timeline) : (s.close t).1.isOpen = false := by
  rw [close]
  split
  · rfl
  next closed => exact Bool.eq_false_iff.mpr closed

structure SameMail (s : Session) (t : Timeline) (r : Session × Timeline) : Prop where
  agent : r.1.agent = s.agent
  channel : r.1.channel = s.channel
  maxFrame : r.1.maxFrame = s.maxFrame
  mailboxes : r.2.broker.mailboxes = t.broker.mailboxes

theorem SameMail.trans {r r' : Session × Timeline} (h : SameMail s t r) (h' : SameMail r.1 r.2 r') :
    SameMail s t r' where
  agent := h'.agent.trans h.agent
  channel := h'.channel.trans h.channel
  maxFrame := h'.maxFrame.trans h.maxFrame
  mailboxes := h'.mailboxes.trans h.mailboxes

theorem sameMail_close (s : Session) (t : Timeline) : SameMail s t (s.close t) := by
  rw [close]
  split
  · exact ⟨rfl, rfl, rfl, congrArg Broker.mailboxes (Timeline.broker_enqueue _)⟩
  · exact ⟨rfl, rfl, rfl, rfl⟩

theorem sameMail_takeFrame (s : Session) (t : Timeline) (body : Bytes) :
    SameMail s t (s.takeFrame t body) := by
  rw [takeFrame]
  split
  · split
    · exact ⟨rfl, rfl, rfl, rfl⟩
    next e typed =>
      have same : (t.enqueue (.envelope s.agent e)).2.broker = t.broker := Timeline.broker_enqueue _
      split
      next taken =>
        rw [taken] at same
        exact ⟨rfl, rfl, rfl, congrArg Broker.mailboxes same⟩
      next refused =>
        rw [refused] at same
        have still : SameMail s t (s, _) := ⟨rfl, rfl, rfl, congrArg Broker.mailboxes same⟩
        exact still.trans (sameMail_close s _)
  · exact ⟨rfl, rfl, rfl, rfl⟩

theorem sameMail_receive (s : Session) (t : Timeline) (bytes : Bytes) :
    SameMail s t (s.receive t bytes) := by
  have frames (bodies : List Bytes) (s : Session) (t : Timeline) :
      SameMail s t (bodies.foldl (fun r body => r.1.takeFrame r.2 body) (s, t)) := by
    induction bodies generalizing s t with
    | nil => exact ⟨rfl, rfl, rfl, rfl⟩
    | cons body rest ih => exact (sameMail_takeFrame s t body).trans (ih _ _)
  rw [receive]
  split
  · have read := frames (Frame.takeComplete s.maxFrame (s.pending ++ bytes)).1
      { s with pending := (Frame.takeComplete s.maxFrame (s.pending ++ bytes)).2 } t
    have read : SameMail s t _ := ⟨read.agent, read.channel, read.maxFrame, read.mailboxes⟩
    dsimp only
    split
    · exact read.trans (sameMail_close _ _)
    · exact read
  · exact ⟨rfl, rfl, rfl, rfl⟩

def emptied (s : Session) (t : Timeline) : Timeline :=
  t.mapMailboxes fun m => (m.take s.channel).2

theorem write_eq (isOpen : s.isOpen) :
    s.write t =
      ((frames s.maxFrame (t.broker.mailboxes.contents s.channel)).1,
        if (frames s.maxFrame (t.broker.mailboxes.contents s.channel)).2 || s.isDrained t then
          s.close (s.emptied t)
        else (s, s.emptied t)) := by
  rw [write, if_pos isOpen]
  dsimp only [Mailboxes.take]
  have same : s.isDrained (t.mapMailboxes fun _ => (t.broker.mailboxes.take s.channel).2) =
      s.isDrained t := rfl
  dsimp only [Mailboxes.take] at same
  rw [same]
  split
  · rfl
  · rfl

theorem emptied_takeFirst? (first : t.broker.mailboxes.takeFirst? s.channel = some (n, m)) :
    s.emptied (t.mapMailboxes fun _ => m) = s.emptied t := by
  have same : s.emptied (t.mapMailboxes fun _ => m) =
      t.mapMailboxes fun _ => (m.take s.channel).2 := rfl
  rw [same, Mailboxes.take_takeFirst? first]
  rfl

theorem isDrained_takeFirst? (first : t.broker.mailboxes.takeFirst? s.channel = some (n, m)) :
    s.isDrained (t.mapMailboxes fun _ => m) = s.isDrained t := by
  have held := Mailboxes.held_takeFirst? first
  rw [isDrained, isDrained, Broker.canWrite, Broker.canWrite]
  change (_ || !(m.held.contains _ || _)) = _
  rw [held]
  rfl

theorem close_emptied (s : Session) (t : Timeline) :
    s.close (s.emptied t) = ((s.close t).1, s.emptied (s.close t).2) := by
  rw [close, close]
  split
  · exact congrArg _ (Timeline.enqueue_mapMailboxes _ _)
  · rfl

def fetching (s : Session) (t : Timeline) : Nat → Bytes × Session × Timeline
  | 0 => ([], s, t)
  | k + 1 =>
    match s.fetch t with
    | (bytes, s, t) =>
      match fetching s t k with
      | (more, s, t) => (bytes ++ more, s, t)

theorem fetching_idle (idle : s.fetch t = ([], s, t)) (k : Nat) :
    s.fetching t k = ([], s, t) := by
  induction k with
  | zero => rfl
  | succ k ih =>
    rw [fetching, idle]
    dsimp only
    rw [ih]
    rfl

theorem fetch_closed (closed : s.isOpen = false) : s.fetch t = ([], s, t) :=
  if_neg (Bool.eq_false_iff.mp closed)

/-- Writing all that waits is taking one notice after the other. A session that ends with a notice
has taken out those behind it as well. -/
theorem write_eq_fetching (isOpen : s.isOpen) {k : Nat}
    (enough : (t.broker.mailboxes.contents s.channel).length < k) :
    (s.write t).1.flatten = (s.fetching t k).1 ∧
      (s.write t).2 = ((s.fetching t k).2.1, s.emptied (s.fetching t k).2.2) := by
  induction k generalizing t with
  | zero => exact absurd enough (Nat.not_lt_zero _)
  | succ k ih =>
    rw [write_eq isOpen, fetching, fetch, if_pos isOpen]
    cases first : t.broker.mailboxes.takeFirst? s.channel with
    | none =>
      rw [Mailboxes.contents_takeFirst?_none first]
      dsimp only [frames, Bool.false_or]
      split
      next drained =>
        rw [fetching_idle (fetch_closed (isOpen_close s t)), close_emptied]
        exact ⟨rfl, if_pos drained⟩
      next goesOn =>
        have idle : s.fetch t = ([], s, t) := by
          rw [fetch, if_pos isOpen, first]
          exact if_neg goesOn
        rw [fetching_idle idle]
        exact ⟨rfl, if_neg goesOn⟩
    | some found =>
      obtain ⟨n, m⟩ := found
      rw [Mailboxes.contents_takeFirst? first] at enough ⊢
      dsimp only
      by_cases allowed : Allowed s.maxFrame (encode n)
      · have fewer : ((t.mapMailboxes fun _ => m).broker.mailboxes.contents s.channel).length < k :=
          Nat.lt_of_succ_lt_succ enough
        have later := ih fewer
        rw [write_eq isOpen, emptied_takeFirst? first, isDrained_takeFirst? first] at later
        rw [frames_allowed allowed, write?_eq_ok allowed]
        exact ⟨congrArg (framed (encode n) ++ ·) later.1, later.2⟩
      · rw [frames, write?_eq_error allowed]
        dsimp only
        rw [Bool.true_or, if_pos rfl, fetching_idle (fetch_closed (isOpen_close s _)),
          ← emptied_takeFirst? first, close_emptied]
        exact ⟨rfl, rfl⟩

end Session

end AgentBroker
