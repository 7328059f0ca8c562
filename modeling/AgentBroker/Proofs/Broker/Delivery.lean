import AgentBroker.Proofs.Broker.History
import Mathlib.Data.List.Nodup

/-!
# Delivery

Messages between agents arrive exactly once and in order. A mailbox that an agent brings to its
admission receives the messages that are meant for the agent while this session lasts, and no others.
-/

namespace AgentBroker.Broker

variable {b b' : Broker} {now elapsed : Nanos} {awaited : Bool} {agent : String}
  {channel : Channel} {P : String → Prop}

def Event.admission? : Event → Option (String × Channel)
  | .command _ _ _ (.connect agent channel _) => some (agent, channel)
  | _ => none

def Event.bringsNotice : Event → Bool
  | .command _ _ _ c => c.bringsNotice
  | _ => false

/-- What an event puts into mailboxes. -/
def posted (b : Broker) : Event → List (Channel × Notice)
  | .command now elapsed awaited c =>
    (b.after (.command now elapsed awaited c)).mailboxes.waiting.drop b.mailboxes.waiting.length
  | _ => []

theorem waiting_after (b : Broker) (now elapsed : Nanos) (awaited : Bool) (c : Command) :
    (b.after (.command now elapsed awaited c)).mailboxes.waiting =
      b.mailboxes.waiting ++ b.posted (.command now elapsed awaited c) := by
  have appended {b' : Broker} (effect : Effect b now c b') :
      b.mailboxes.waiting <+: b'.mailboxes.waiting := by
    cases effect with
    | admits fresh => exact List.prefix_rfl
    | serves connected asks answered =>
      obtain ⟨answers, rest, -⟩ := answered
      rw [rest.mail, mailboxes_edit]
      exact List.prefix_append _ _
    | keeps rest =>
      rw [rest.mail]
      exact List.prefix_append _ _
  obtain ⟨posts, eq⟩ := appended (apply_effect b now elapsed awaited c)
  rw [posted, after, ← eq, List.drop_left]

theorem session_of_mem_posted {e : Event} {p : Channel × Notice} (mem : p ∈ b.posted e) :
    ∃ a, b.session? a = some p.1 := by
  cases e with
  | command now elapsed awaited c =>
    have effect := apply_effect b now elapsed awaited c
    rw [posted, after] at mem
    generalize (b.apply now elapsed awaited c).2 = b' at effect mem
    cases effect with
    | @admits _ channel _ fresh =>
      have same (a : String) : (b.withSession a channel).mailboxes = b.mailboxes := rfl
      rw [same, List.drop_length] at mem
      cases mem
    | serves connected asks answered =>
      obtain ⟨answers, rest, -⟩ := answered
      rw [rest.mail, mailboxes_edit, List.drop_left] at mem
      obtain ⟨a, session⟩ := rest.addressed p mem
      exact ⟨a, (session?_edit _ _ _ _).symm.trans session⟩
    | keeps rest =>
      rw [rest.mail, List.drop_left] at mem
      exact rest.addressed p mem
  | _ => cases mem

def messagesIn (channel : Channel) (posts : List (Channel × Notice)) : List Notice :=
  ((posts.filter (·.1 == channel)).map (·.2)).filter Notice.isDelivery

/-- The messages of other agents that an event puts into a mailbox. -/
def messages (channel : Channel) (b : Broker) (e : Event) : List Notice :=
  messagesIn channel (b.posted e)

/-- The message that an event has to put into the mailbox of an agent: what a connected agent sends
to this one, while its session uses this mailbox and somebody reads it, if the ledger accepts it. -/
def due (agent : String) (channel : Channel) (b : Broker) : Event → List Notice
  | .command now _ _ (.envelope sender e) =>
    match e.request with
    | some (.sendMessage letter) =>
      if b.isConnected sender ∧ letter.destination = agent ∧ b.session? agent = some channel ∧
          b.mailboxes.isOpen channel ∧ b.accepts now sender letter then
        [.delivery sender letter.conversationId letter.body]
      else []
    | _ => []
  | _ => []

theorem messagesIn_append (xs ys : List (Channel × Notice)) :
    messagesIn channel (xs ++ ys) = messagesIn channel xs ++ messagesIn channel ys := by
  rw [messagesIn, List.filter_append, List.map_append, List.filter_append]
  rfl

theorem messagesIn_eq_nil {posts : List (Channel × Notice)}
    (silent : ∀ p ∈ posts, p.2.isDelivery = false) : messagesIn channel posts = [] := by
  rw [messagesIn, List.filter_eq_nil_iff]
  intro n mem
  obtain ⟨p, stored, rfl⟩ := List.mem_map.mp mem
  rw [silent p (List.mem_filter.mp stored).1]
  exact Bool.false_ne_true

/-- Whoever uses the mailbox is one of these agents. -/
def UsedOnlyBy (channel : Channel) (P : String → Prop) (b : Broker) : Prop :=
  ∀ agent, b.session? agent = some channel → P agent

theorem UsedOnlyBy.effect {c : Command} (h : b.UsedOnlyBy channel P) (effect : Effect b now c b')
    (entitled : ∀ other ticket, c = .connect other channel ticket → P other) :
    b'.UsedOnlyBy channel P := by
  intro other session
  cases effect with
  | @admits _ brought ticket fresh =>
    rw [session?_withSession] at session
    split at session
    next same =>
      cases session
      exact entitled other ticket (same ▸ rfl)
    · exact h other session
  | serves connected asks answered =>
    obtain ⟨answers, rest, -⟩ := answered
    exact h other ((session?_edit _ _ _ _).symm.trans (rest.session session))
  | keeps rest => exact h other (rest.session session)

theorem UsedOnlyBy.after (h : b.UsedOnlyBy channel P) (e : Event)
    (entitled : ∀ other, e.admission? = some (other, channel) → P other) :
    (b.after e).UsedOnlyBy channel P := by
  cases e with
  | command now elapsed awaited c =>
    refine h.effect (apply_effect b now elapsed awaited c) ?_
    rintro other ticket rfl
    exact entitled other rfl
  | _ => exact h

theorem UsedOnlyBy.run (h : b.UsedOnlyBy channel P) (events : List Event)
    (entitled : ∀ e ∈ events, ∀ other, e.admission? = some (other, channel) → P other) :
    (Run.last Broker.after b events).UsedOnlyBy channel P := by
  induction events generalizing b with
  | nil => exact h
  | cons e rest ih =>
    exact ih (h.after e (entitled e List.mem_cons_self)) fun e' mem =>
      entitled e' (List.mem_cons_of_mem _ mem)

theorem messagesIn_singleton (c : Channel) {n : Notice} (h : n.isDelivery) :
    messagesIn channel [(c, n)] = if c = channel then [n] else [] := by
  by_cases same : c = channel
  · simp [messagesIn, same, h]
  · simp [messagesIn, same]

theorem messagesIn_deliveries (h : b.UsedOnlyBy channel (· = agent)) {sender : String}
    (connected : b.isConnected sender) {request : Request} {e : Envelope}
    (asks : e.request = some request) :
    messagesIn channel (b.deliveries now sender request) =
      b.due agent channel (.command now elapsed awaited (.envelope sender e)) := by
  rw [due, asks]
  cases request with
  | sendMessage letter =>
    dsimp only
    rw [deliveries]
    by_cases accepted : b.accepts now sender letter
    · rw [if_pos accepted]
      cases reached : b.reach? letter.destination with
      | none =>
        have undue : ¬ (b.isConnected sender ∧ letter.destination = agent ∧
            b.session? agent = some channel ∧ b.mailboxes.isOpen channel ∧
            b.accepts now sender letter) := by
          rintro ⟨-, rfl, session, opened, -⟩
          rw [reach?_eq_some.mpr ⟨session, opened⟩] at reached
          cases reached
        rw [if_neg undue]
        rfl
      | some c =>
        obtain ⟨session, opened⟩ := reach?_eq_some.mp reached
        rw [Option.toList_some, List.map_singleton, messagesIn_singleton c rfl]
        by_cases same : c = channel
        · subst same
          have meant : letter.destination = agent := h letter.destination session
          rw [if_pos rfl, if_pos ⟨connected, meant, meant ▸ session, opened, accepted⟩]
        · rw [if_neg same, if_neg]
          rintro ⟨-, rfl, session', -⟩
          rw [session] at session'
          exact same (Option.some.inj session')
    · rw [if_neg accepted, if_neg fun due => accepted due.2.2.2.2]
      rfl
  | _ => rfl

theorem messagesIn_effect {c : Command} (h : b.UsedOnlyBy channel (· = agent))
    (effect : Effect b now c b') (quiet : c.bringsNotice = false) :
    messagesIn channel (b'.mailboxes.waiting.drop b.mailboxes.waiting.length) =
      b.due agent channel (.command now elapsed awaited c) := by
  cases effect with
  | admits fresh =>
    have same (a : String) (c : Channel) : (b.withSession a c).mailboxes = b.mailboxes := rfl
    rw [same, List.drop_length]
    rfl
  | serves connected asks answered =>
    obtain ⟨answers, rest, silent⟩ := answered
    rw [rest.mail, mailboxes_edit, List.drop_left, messagesIn_append, messagesIn_eq_nil silent,
      List.append_nil]
    exact messagesIn_deliveries h connected asks
  | keeps rest silent idle =>
    rw [rest.mail, List.drop_left, silent quiet]
    cases c with
    | envelope sender e =>
      rw [due]
      split
      next letter asks =>
        have request : (Command.envelope sender e).request? sender = some (.sendMessage letter) :=
          (if_pos rfl).trans asks
        rw [if_neg fun due => idle sender _ request due.1]
        rfl
      · rfl
    | _ => rfl

theorem messages_eq_due (h : b.UsedOnlyBy channel (· = agent)) (e : Event)
    (quiet : e.bringsNotice = false) : b.messages channel e = b.due agent channel e := by
  cases e with
  | command now elapsed awaited c =>
    exact messagesIn_effect h (apply_effect b now elapsed awaited c) quiet
  | _ => rfl

theorem usedOnlyBy_start (notifications : NotificationSettings) :
    (start notifications).UsedOnlyBy channel P := by
  intro other session
  simp [session?, start] at session

theorem due_eq_nil (h : b.session? agent ≠ some channel) (e : Event) :
    b.due agent channel e = [] := by
  cases e with
  | command now elapsed awaited c =>
    cases c with
    | envelope sender e =>
      rw [due]
      split
      · exact if_neg fun due => h due.2.2.1
      · rfl
    | _ => rfl
  | _ => rfl

theorem messages_eq_nil (h : b.UsedOnlyBy channel fun _ => False) (events : List Event)
    (quiet : ∀ e ∈ events, e.bringsNotice = false)
    (unused : ∀ e ∈ events, ∀ other, e.admission? ≠ some (other, channel)) :
    Run.log after (messages channel) b events = [] := by
  refine Run.log_eq_nil b events ?_
  rintro past e later rfl
  have idle : (Run.last after b past).UsedOnlyBy channel fun _ => False :=
    h.run past fun e' mem other => unused e' (List.mem_append_left _ mem) other
  have vacant (other : String) : (Run.last after b past).session? other ≠ some channel := idle other
  have used : (Run.last after b past).UsedOnlyBy channel (· = "") := fun other session =>
    (idle other session).elim
  rw [messages_eq_due used e (quiet e (by simp)), due_eq_nil (vacant "")]

theorem admission?_elsewhere {before rest : List Event} {connect : Event}
    (brings : connect.admission? = some (agent, channel))
    (fresh : (((before ++ connect :: rest).filterMap Event.admission?).map (·.2)).Nodup)
    {e : Event} (mem : e ∈ before ++ rest) (other : String) :
    e.admission? ≠ some (other, channel) := by
  intro same
  rw [List.filterMap_append, List.filterMap_cons_some brings, List.map_append, List.map_cons,
    List.nodup_middle, List.nodup_cons, ← List.map_append, ← List.filterMap_append] at fresh
  exact fresh.1 (List.mem_map.mpr ⟨(other, channel), List.mem_filterMap.mpr ⟨e, mem, same⟩, rfl⟩)

theorem usedOnlyBy_replay (notifications : NotificationSettings) {events before rest : List Event}
    {ticket : Ticket}
    (split : events = before ++ .command now elapsed awaited (.connect agent channel ticket) :: rest)
    (fresh : ((events.filterMap Event.admission?).map (·.2)).Nodup) {past : List Event}
    (begins : past <+: events) : (replay notifications past).UsedOnlyBy channel (· = agent) := by
  subst split
  refine (usedOnlyBy_start notifications).run past ?_
  intro e mem other admission
  have elsewhere (aside : e ∈ before ++ rest) : other = agent :=
    absurd admission (admission?_elsewhere rfl fresh aside other)
  rcases List.mem_append.mp (begins.subset mem) with mem | mem
  · exact elsewhere (List.mem_append_left rest mem)
  · rcases List.mem_cons.mp mem with rfl | mem
    · cases admission
      rfl
    · exact elsewhere (List.mem_append_right before mem)

/-- When every admission brings a mailbox of its own, the mailbox of an agent receives the messages
due to the agent, in their order. It receives none before the admission, and none after the session
has ended. -/
theorem deliveries_exact (notifications : NotificationSettings) {events before rest : List Event}
    {ticket : Ticket}
    (split : events = before ++ .command now elapsed awaited (.connect agent channel ticket) :: rest)
    (quiet : ∀ e ∈ events, e.bringsNotice = false)
    (fresh : ((events.filterMap Event.admission?).map (·.2)).Nodup) :
    Run.log after (messages channel) (.start notifications) events =
      Run.log after (due agent channel) (.start notifications) events ∧
    Run.log after (messages channel) (.start notifications) before = [] ∧
    ∀ past later, events = past ++ later → before.length < past.length →
      (replay notifications past).session? agent ≠ some channel →
      Run.log after (messages channel) (replay notifications past) later = [] := by
  have used {past later : List Event} (begins : events = past ++ later) :
      (replay notifications past).UsedOnlyBy channel (· = agent) :=
    usedOnlyBy_replay notifications split fresh ⟨later, begins.symm⟩
  have elsewhere {e : Event} (mem : e ∈ before ++ rest) (other : String) :
      e.admission? ≠ some (other, channel) := admission?_elsewhere rfl (split ▸ fresh) mem other
  refine ⟨?_, ?_, ?_⟩
  · refine Run.log_congr _ _ fun past e later cut => ?_
    exact messages_eq_due (used cut) e (quiet e (by simp [cut]))
  · refine messages_eq_nil (usedOnlyBy_start notifications) before ?_ ?_
    · intro e mem
      exact quiet e (split ▸ List.mem_append_left _ mem)
    · intro e mem
      exact elsewhere (List.mem_append_left rest mem)
  · intro past later cut longer gone
    have vacant : (replay notifications past).UsedOnlyBy channel fun _ => False := by
      intro other session
      rw [used cut other session] at session
      exact gone session
    have remains : later <:+ rest := by
      have whole := congrArg List.length (split.symm.trans cut)
      simp only [List.length_append, List.length_cons] at whole
      refine List.suffix_of_suffix_length_le ⟨past, cut.symm⟩ ?_ (by omega)
      rw [split]
      exact (List.suffix_cons _ rest).trans (List.suffix_append before _)
    refine messages_eq_nil vacant later ?_ ?_
    · intro e mem
      exact quiet e (cut ▸ List.mem_append_right past mem)
    · intro e mem
      exact elsewhere (List.mem_append_right before (remains.subset mem))

/-- A seller writes to a buyer. -/
theorem deliveries_exact_letter :
    let events : List Event :=
      [.command 0 0 true (.connect "buyer" 0 0), .command 0 0 true (.connect "seller" 1 1),
        .command 0 0 false (.envelope "seller" (.message "sale" "buyer" (.text "hello")))]
    (∀ e ∈ events, e.bringsNotice = false) ∧
    ((events.filterMap Event.admission?).map (·.2)).Nodup ∧
    Run.log after (messages 0) (start default) events =
      Run.log after (due "buyer" 0) (start default) events :=
  have split : _ = [] ++ Event.command 0 0 true (.connect "buyer" 0 0) :: _ := rfl
  ⟨by decide, by decide, (deliveries_exact default split (by decide) (by decide)).1⟩

end AgentBroker.Broker
