import AgentBroker.Proofs.Handshake.Admission
import AgentBroker.Proofs.Scheduler.Requests

/-!
# Handshakes that come to nothing

Others go on with their business while a handshake is under way. If nothing but the handshake
concerns its agent, an admission that is taken back leaves no trace.
-/

namespace AgentBroker

open Scheduler

/-- The action brings nothing that concerns the agent. -/
def Scheduler.Action.Spares {π : Type} (agent : String) : Scheduler.Action π → Prop
  | .post _ c => c.1.concerns agent = false
  | .request _ make => ∀ t, (make.1 t).concerns agent = false
  | _ => True

namespace Scheduler

variable {π : Type} {s s' : Scheduler} {a : Action π} {agent : String}

theorem Action.Spares.brings (h : a.Spares agent) {p : π × Command} (mem : p ∈ s.brings a) :
    p.2.concerns agent = false := by
  cases a with
  | post producer c =>
    cases List.mem_singleton.mp mem
    exact h
  | request producer make =>
    cases List.mem_singleton.mp mem
    exact h s.tickets
  | _ => cases mem

/-- The session of an agent is to be ended, or it has ended. -/
structure Leaving (agent : String) (s : Scheduler) : Prop where
  queue : ∀ c ∈ s.queue, c.concerns agent → c = .disconnect agent
  ends : .disconnect agent ∈ s.queue ∨ s.broker.session? agent = none

theorem Leaving.turn {put : List (π × Command)} {out : List Command} {events : List Broker.Event}
    {given : List (Ticket × Reply)} (h : Leaving agent s) (turn : Turn s a put out events given s')
    (brings : ∀ p ∈ put, p.2.concerns agent = false) (running : s'.phase = .running) :
    Leaving agent s' := by
  have longer {c : Command} (apart : c.concerns agent = false) :
      ∀ c' ∈ s.queue ++ [c], c'.concerns agent → c' = .disconnect agent := by
    intro c' mem concerns
    rcases List.mem_append.mp mem with waits | came
    · exact h.queue c' waits concerns
    · cases List.mem_singleton.mp came
      rw [apart] at concerns
      cases concerns
  cases turn with
  | @posts p c =>
    exact ⟨longer (brings _ List.mem_cons_self), h.ends.imp_left (List.mem_append_left _)⟩
  | @requests p make =>
    exact ⟨longer (brings _ List.mem_cons_self), h.ends.imp_left (List.mem_append_left _)⟩
  | @happens e =>
    have apart : e.1.concerns agent = false := by
      obtain ⟨e, outside⟩ := e
      cases e with
      | command => cases outside
      | _ => rfl
    refine ⟨h.queue, h.ends.imp_right fun gone => ?_⟩
    exact (s.broker.session?_after_apart apart).trans gone
  | @applies now elapsed c rest _ first goes =>
    have waits : ∀ c' ∈ rest, c'.concerns agent → c' = .disconnect agent := fun c' mem =>
      h.queue c' (first ▸ List.mem_cons_of_mem c mem)
    refine ⟨waits, ?_⟩
    -- Either the disconnect is carried out now, or it goes on waiting behind a command of others.
    by_cases concerns : c.concerns agent
    · cases h.queue c (first ▸ List.mem_cons_self) concerns
      exact .inr (Broker.session?_disconnect s.broker agent)
    · rw [Bool.not_eq_true] at concerns
      rcases h.ends with mem | gone
      · rw [first] at mem
        rcases List.mem_cons.mp mem with rfl | later
        · simp [Command.concerns] at concerns
        · exact .inl later
      · have apart : Broker.Event.concerns agent (.command now elapsed (s.awaits c) c) = false :=
          concerns
        exact .inr ((s.broker.session?_after_apart apart).trans gone)
  | halts => cases running
  | closes => cases running
  | drops stopped => rw [stopped] at running; cases running
  | abandons | collects | idle | refused => exact ⟨h.queue, h.ends⟩

theorem Leaving.after {actions : List (Action π)} (h : Leaving agent s)
    (spares : ∀ a ∈ actions, a.Spares agent) (running : (s.after actions).phase = .running) :
    Leaving agent (s.after actions) := by
  induction actions generalizing s with
  | nil => exact h
  | cons a rest ih =>
    obtain ⟨first, later⟩ := List.forall_mem_cons.mp spares
    have still : (s.act a).phase = .running := ((s.act a).running_after_iff rest).mp running |>.1
    have brings : ∀ p ∈ s.accepts a, p.2.concerns agent = false := by
      intro p mem
      rw [accepts] at mem
      split at mem
      · cases mem
      · exact first.brings mem
    exact ih (h.turn (Scheduler.turn s a) brings still) later running

end Scheduler

namespace Entrance

variable {e : Entrance} {id : String} {moves : List Move}

/-- Nothing but the handshake concerns the agent. -/
structure LeftAlone (id : String) (e : Entrance) (moves : List Move) : Prop where
  queue : ∀ c ∈ e.scheduler.queue, c.concerns id = false
  others : ∀ a, .elsewhere a ∈ moves → a.Spares id

theorem scheduler_act (e : Entrance) (m : Move) :
    ∃ f, (e.act m).scheduler = (e.scheduler.after (e.dealings m)).counting f := by
  cases m with
  | go => exact e.turn_go.2.scheduler
  | send piece =>
    refine ⟨fun m => m, ?_⟩
    rw [act]
    split
    · rfl
    · rfl
  | _ => exact ⟨fun m => m, rfl⟩

theorem spares_of_mem_dealings {m : Move} {a : Action Unit} (mem : a ∈ e.dealings m)
    (others : ∀ a, m = .elsewhere a → a.Spares id) :
    a.Spares id ∨
    (∃ id' channel, a = .request () (Gate.admission id' channel) ∧
      .connect id' channel e.scheduler.tickets ∈ e.asks m) ∨
    ∃ id', a = .post () (Gate.dismissal id') ∧ .disconnect id' ∈ e.asks m := by
  cases m with
  | elsewhere a' =>
    cases List.mem_singleton.mp mem
    exact .inl (others a rfl)
  | go =>
    rw [asks, Gate.asks]
    rcases Gate.mem_dealings mem with ⟨id', stage, rfl⟩ | ⟨id', cause, stage, rfl⟩ |
      ⟨maxIdle, rfl⟩ | ⟨now, rfl⟩ | ⟨t, rfl⟩
    · rw [stage]
      exact .inr (.inl ⟨id', _, rfl, List.mem_cons_self⟩)
    · rw [stage]
      exact .inr (.inr ⟨id', rfl, List.mem_cons_self⟩)
    · exact .inl rfl
    · exact .inl trivial
    · exact .inl trivial
  | _ => cases mem

theorem brought_dealings {m : Move} {p : Unit × Command}
    (mem : p ∈ e.scheduler.brought (e.dealings m)) (others : ∀ a, m = .elsewhere a → a.Spares id) :
    p.2.concerns id = false ∨ ∃ c ∈ e.asks m, c.passes id → p.2.passes id := by
  obtain ⟨a, deals, s, brings⟩ := exists_of_mem_brought mem
  rcases spares_of_mem_dealings deals others with spares | ⟨id', channel, rfl, asks⟩ |
    ⟨id', rfl, asks⟩
  · exact .inl (spares.brings brings)
  · cases List.mem_singleton.mp brings
    exact .inr ⟨_, asks, fun passes => passes⟩
  · cases List.mem_singleton.mp brings
    exact .inr ⟨_, asks, fun passes => passes⟩

theorem broker_act (e : Entrance) (m : Move) :
    ∃ f, (e.act m).broker =
      (Run.last Broker.after e.broker (e.scheduler.carried (e.dealings m))).count f := by
  obtain ⟨f, scheduler⟩ := e.scheduler_act m
  refine ⟨f, ?_⟩
  rw [broker, scheduler, counting, broker_after]
  rfl

theorem queue_act (e : Entrance) (m : Move) :
    (e.act m).scheduler.queue = (e.scheduler.after (e.dealings m)).queue := by
  obtain ⟨f, scheduler⟩ := e.scheduler_act m
  rw [scheduler]
  rfl

theorem phase_act (e : Entrance) (m : Move) :
    (e.act m).scheduler.phase = (e.scheduler.after (e.dealings m)).phase := by
  obtain ⟨f, scheduler⟩ := e.scheduler_act m
  rw [scheduler]
  rfl

theorem event_of_command {P : Command → Prop} {events : List Broker.Event}
    (all : ∀ c ∈ Broker.commands events, P c) {now elapsed : Nanos} {awaited : Bool} {c : Command}
    (mem : .command now elapsed awaited c ∈ events) : P c :=
  all c (List.mem_filterMap.mpr ⟨_, mem, rfl⟩)

theorem act_untouched {m : Move} (others : ∀ a, m = .elsewhere a → a.Spares id)
    (queue : ∀ c ∈ e.scheduler.queue, c.concerns id = false) (silent : e.asks m = []) :
    (e.act m).broker.session? id = e.broker.session? id ∧
      ∀ c ∈ (e.act m).scheduler.queue, c.concerns id = false := by
  have brought (p : Unit × Command) (mem : p ∈ e.scheduler.brought (e.dealings m)) :
      p.2.concerns id = false := by
    rcases brought_dealings mem others with apart | ⟨c, asks, -⟩
    · exact apart
    · rw [silent] at asks
      cases asks
  obtain ⟨later, carried⟩ := all_of_brought queue brought
  have apart (event : Broker.Event) (mem : event ∈ e.scheduler.carried (e.dealings m)) :
      event.concerns id = false := by
    cases event with
    | command now elapsed awaited c => exact event_of_command carried mem
    | _ => rfl
  obtain ⟨f, moved⟩ := e.broker_act m
  rw [moved, queue_act]
  exact ⟨((Broker.SameBesides.refl id e.broker).last apart).session, later⟩

theorem untouched (alone : LeftAlone id e moves) (silent : e.asked moves = []) :
    (e.after moves).broker.session? id = e.broker.session? id ∧
      ∀ c ∈ (e.after moves).scheduler.queue, c.concerns id = false := by
  induction moves using List.reverseRecOn with
  | nil => exact ⟨rfl, alone.queue⟩
  | append_singleton moves m ih =>
    rw [asked, Run.log_concat, List.append_eq_nil_iff] at silent
    have others (a : Action Unit) (mem : .elsewhere a ∈ moves) : a.Spares id :=
      alone.others a (List.mem_append_left _ mem)
    obtain ⟨session, queue⟩ := ih ⟨alone.queue, others⟩ silent.1
    have last (a : Action Unit) (same : m = .elsewhere a) : a.Spares id :=
      alone.others a (List.mem_append_right _ (List.mem_singleton.mpr same.symm))
    obtain ⟨session', queue'⟩ := act_untouched last queue silent.2
    rw [after, Run.last_concat]
    exact ⟨session'.trans session, queue'⟩

theorem act_without {m : Move} (others : ∀ a, m = .elsewhere a → a.Spares id)
    (queue : ∀ c ∈ e.scheduler.queue, c.concerns id → c = .disconnect id)
    (asks : ∀ c ∈ e.asks m, c.passes id) {alone : Broker}
    (h : Broker.Without id alone e.broker) :
    Broker.Without id
      (Run.last Broker.after alone
        ((e.scheduler.carried (e.dealings m)).filter fun event => !event.concerns id))
      (e.act m).broker := by
  have waits (c : Command) (mem : c ∈ e.scheduler.queue) :
      c.concerns id = false ∨ c.passes id := by
    by_cases concerns : c.concerns id
    · rw [queue c mem concerns]
      exact .inr (beq_self_eq_true id)
    · exact .inl (Bool.eq_false_iff.mpr concerns)
  have brought (p : Unit × Command) (mem : p ∈ e.scheduler.brought (e.dealings m)) :
      p.2.concerns id = false ∨ p.2.passes id :=
    (brought_dealings mem others).imp_right fun ⟨c, asked, same⟩ => same (asks c asked)
  obtain ⟨-, carried⟩ := all_of_brought waits brought
  have apart (event : Broker.Event) (mem : event ∈ e.scheduler.carried (e.dealings m)) :
      event.concerns id = false ∨ event.passes id := by
    cases event with
    | command now elapsed awaited c => exact event_of_command carried mem
    | _ => exact .inl rfl
  obtain ⟨f, moved⟩ := e.broker_act m
  rw [moved]
  exact (h.last apart).count f

theorem leaving_act (e : Entrance) (m : Move) :
    Leaving id (e.act m).scheduler ↔ Leaving id (e.scheduler.after (e.dealings m)) := by
  obtain ⟨f, scheduler⟩ := e.scheduler_act m
  rw [scheduler]
  exact ⟨fun h => ⟨h.queue, h.ends⟩, fun h => ⟨h.queue, h.ends⟩⟩

theorem leaving_silent {m : Move} (h : Leaving id e.scheduler)
    (others : ∀ a, m = .elsewhere a → a.Spares id) (silent : e.asks m = [])
    (running : (e.act m).scheduler.phase = .running) : Leaving id (e.act m).scheduler := by
  rw [phase_act] at running
  have spares (a : Action Unit) (deals : a ∈ e.dealings m) : a.Spares id := by
    rcases spares_of_mem_dealings deals others with spares | ⟨_, _, _, asks⟩ | ⟨_, _, asks⟩
    · exact spares
    · rw [silent] at asks
      cases asks
    · rw [silent] at asks
      cases asks
  exact (leaving_act e m).mpr (h.after spares running)

theorem queue_withdrawal {cause : HandshakeError}
    (stage : e.seat.state.keeper.stage = .withdrawal id cause)
    (isOpen : e.scheduler.isStopped = false) :
    (e.act .go).scheduler.queue = e.scheduler.queue ++ [.disconnect id] := by
  have deals : e.dealings .go = [.post () (Gate.dismissal id)] := by
    rw [dealings, Gate.dealings, stage]
  have posted := e.queue_act .go
  rw [deals] at posted
  refine posted.trans ?_
  change (e.scheduler.enqueue (.disconnect id)).queue = _
  rw [enqueue, enqueue?, if_neg (Bool.eq_false_iff.mp isOpen)]
  rfl

theorem queue_admission (stage : e.seat.state.keeper.stage = .admission id)
    (isOpen : e.scheduler.isStopped = false) : (e.act .go).scheduler.queue = [] := by
  have requested : e.dealings .go =
      .request () (Gate.admission id e.seat.state.channel) ::
        (e.seat.state.timeline.asking (Gate.admission id e.seat.state.channel)).settling ++
          [.collect e.scheduler.tickets] := by
    rw [dealings, Gate.dealings, stage]
    exact if_neg (Bool.eq_false_iff.mp isOpen)
  have settled := Timeline.queue_settling
    (e.seat.state.timeline.asking (Gate.admission id e.seat.state.channel))
  have collected (s : Scheduler) (t : Ticket) :
      (s.after [(.collect t : Action Unit)]).queue = s.queue := by
    have same := congrArg Scheduler.queue (collect_eq s t)
    exact same
  have requests := e.queue_act .go
  rw [requested, after_append, collected] at requests
  exact requests.trans settled

theorem stage_of_asks {m : Move} {c : Command} (asks : c ∈ e.asks m) :
    m = .go ∧ ((∃ id, e.seat.state.keeper.stage = .admission id ∧
        e.asks m = [.connect id e.seat.state.channel e.scheduler.tickets]) ∨
      ∃ id cause, e.seat.state.keeper.stage = .withdrawal id cause ∧
        e.asks m = [.disconnect id]) := by
  cases m with
  | go =>
    rw [Entrance.asks, Gate.asks] at asks ⊢
    refine ⟨rfl, ?_⟩
    cases stage : e.seat.state.keeper.stage with
    | admission id => exact .inl ⟨id, rfl, rfl⟩
    | withdrawal id cause => exact .inr ⟨id, cause, rfl, rfl⟩
    | _ => rw [stage] at asks; cases asks
  | _ => cases asks

theorem queue_silent {m : Move} (others : ∀ a, m = .elsewhere a → a.Spares id)
    (queue : ∀ c ∈ e.scheduler.queue, c.concerns id → c = .disconnect id)
    (silent : e.asks m = []) :
    ∀ c ∈ (e.act m).scheduler.queue, c.concerns id → c = .disconnect id := by
  have brought (p : Unit × Command) (mem : p ∈ e.scheduler.brought (e.dealings m)) :
      p.2.concerns id → p.2 = .disconnect id := by
    intro concerns
    rcases brought_dealings mem others with apart | ⟨c, asks, -⟩
    · rw [apart] at concerns
      cases concerns
    · rw [silent] at asks
      cases asks
  rw [queue_act]
  exact (all_of_brought queue brought).1

theorem leaving_go (queue : ∀ c ∈ e.scheduler.queue, c.concerns id → c = .disconnect id)
    (isOpen : e.scheduler.isStopped = false) (passes : ∀ c ∈ e.asks .go, c.passes id)
    {c : Command} (asks : c ∈ e.asks .go) :
    ((e.act .go).scheduler.queue = [] ∧ .disconnect id ∉ e.asks .go ∧
      ∃ id', e.seat.state.keeper.stage = .admission id') ∨
      Leaving id (e.act .go).scheduler := by
  obtain ⟨-, ⟨id', stage, asked⟩ | ⟨id', cause, stage, asked⟩⟩ := stage_of_asks asks
  · exact .inl ⟨queue_admission stage isOpen, by simp [asked], id', stage⟩
  · rw [asked] at passes
    cases eq_of_beq (passes _ List.mem_cons_self)
    have posted := queue_withdrawal stage isOpen
    refine .inr ⟨fun c mem concerns => ?_, .inl (by simp [posted])⟩
    rw [posted] at mem
    rcases List.mem_append.mp mem with waits | own
    · exact queue c waits concerns
    · exact List.mem_singleton.mp own

/-- An agent whom nothing else concerns is being admitted, or its admission is being taken back. -/
structure Passing (id : String) (e : Entrance) (moves : List Move) : Prop where
  without : Broker.Without id
    (Run.last Broker.after e.broker ((e.carried moves).filter fun event => !event.concerns id))
    (e.after moves).broker
  queue : ∀ c ∈ (e.after moves).scheduler.queue, c.concerns id → c = .disconnect id
  leaving : .disconnect id ∈ e.asked moves → Leaving id (e.after moves).scheduler

variable {max : Nat} {phrase : String} {channel : Channel}

theorem Stands.asked_of_admission {given seen left written : Bytes} {gone : Nat}
    {asked : List Command} {heard : List Reply}
    (h : Stands max phrase channel given (.admission id) seen gone left written asked heard) :
    asked = [] ∧ heard = [] ∧ Identifies max phrase given id := by
  cases h with
  | admission knows => exact ⟨rfl, rfl, knows⟩

theorem Passing.concat {m : Move} (h : Passing id e moves)
    (follows : Follows max phrase channel [] [] [] [] e)
    (others : ∀ a, m = .elsewhere a → a.Spares id)
    (asks : ∀ c ∈ (e.after moves).asks m, c.passes id)
    (running : ((e.after moves).act m).scheduler.phase = .running) :
    Passing id e (moves ++ [m]) := by
  have stands := (follows.run moves).stands
  have whole : e.after (moves ++ [m]) = (e.after moves).act m := Run.last_concat _ _ _
  have asked_eq : e.asked (moves ++ [m]) = e.asked moves ++ (e.after moves).asks m :=
    Run.log_concat _ _ _
  have carried_eq : e.carried (moves ++ [m]) = e.carried moves ++
      (e.after moves).scheduler.carried ((e.after moves).dealings m) := Run.log_concat _ _ _
  have next := act_without others h.queue asks h.without
  rw [← Run.last_append, ← List.filter_append, ← carried_eq] at next
  suffices rest : (∀ c ∈ ((e.after moves).act m).scheduler.queue,
      c.concerns id → c = .disconnect id) ∧
      (.disconnect id ∈ e.asked moves ++ (e.after moves).asks m →
        Leaving id ((e.after moves).act m).scheduler) from
    ⟨whole ▸ next, whole ▸ rest.1, fun mem => whole ▸ rest.2 (asked_eq ▸ mem)⟩
  -- The queue holds nothing of the agent but a disconnect: a request for its admission has been
  -- worked off before the gatekeeper goes on.
  by_cases silent : (e.after moves).asks m = []
  · refine ⟨queue_silent others h.queue silent, fun mem => ?_⟩
    rw [silent, List.append_nil] at mem
    exact leaving_silent (h.leaving mem) others silent running
  · obtain ⟨c, mem⟩ := List.exists_mem_of_ne_nil _ silent
    obtain ⟨rfl, -⟩ := stage_of_asks mem
    have isOpen : (e.after moves).scheduler.isStopped = false := by
      rw [phase_act] at running
      rw [isStopped, ((running_after_iff _ _).mp running).1]
      rfl
    rcases leaving_go h.queue isOpen asks mem with ⟨empty, other, id', stage⟩ | leaves
    · rw [keeper, stage] at stands
      obtain ⟨nothing, -, -⟩ := stands.asked_of_admission
      rw [empty, nothing]
      exact ⟨by simp, fun mem => absurd mem other⟩
    · exact ⟨leaves.queue, fun _ => leaves⟩

theorem passing (follows : Follows max phrase channel [] [] [] [] e) (alone : LeftAlone id e moves)
    (coherent : e.broker.Coherent) (absent : e.broker.session? id = none)
    (passes : ∀ c ∈ e.asked moves, c.passes id)
    (running : (e.after moves).scheduler.phase = .running) : Passing id e moves := by
  induction moves using List.reverseRecOn with
  | nil =>
    refine ⟨.refl coherent absent, fun c mem concerns => ?_, fun mem => by cases mem⟩
    rw [alone.queue c mem] at concerns
    cases concerns
  | append_singleton moves m ih =>
    rw [after, Run.last_concat] at running
    rw [asked, Run.log_concat] at passes
    have before : (e.after moves).scheduler.phase = .running := by
      rw [← after, phase_act] at running
      exact ((running_after_iff _ _).mp running).1
    have earlier := ih
      ⟨alone.queue, fun a mem => alone.others a (List.mem_append_left _ mem)⟩
      (fun c mem => passes c (List.mem_append_left _ mem)) before
    have others (a : Action Unit) (same : m = .elsewhere a) : a.Spares id :=
      alone.others a (List.mem_append_right _ (List.mem_singleton.mpr same.symm))
    exact earlier.concat follows others (fun c mem => passes c (List.mem_append_right _ mem)) running

end Entrance

end AgentBroker
