import AgentBroker.Proofs.Broker.Marking

/-!
# The accounts balance

What the metrics say agrees with what has happened: the gauge shows the live sessions, every request
of a connected agent is counted once, and every message once by where it has come to.
-/

namespace AgentBroker.Broker

variable {b b' : Broker} {e : Event} {marks : List Mark}

/-- The number of live sessions behind an admission. -/
def crowds (b : Broker) (e : Event) : List Nat :=
  match e.admission? with
  | some (agent, channel) =>
    if b.isConnected agent then [] else [(b.withSession agent channel).sessions.size]
  | none => []

/-- The agents that want to be admitted and have a live session. -/
def refusals (b : Broker) (e : Event) : List String :=
  match e.admission? with
  | some (agent, _) => if b.isConnected agent then [agent] else []
  | none => []

theorem Leaves.apart {op : Operation} {result : Except Failure Unit} (h : Leaves op result marks)
    (gone : Bool) :
    ∀ k ∈ bill op result marks gone, k ≠ .admitted ∧ k ≠ .rejected := by
  cases h with
  | unregisters op_eq found => cases found <;> simp [bill, tellings]
  | finds op_eq gone' => cases gone' <;> simp [bill, tellings, closings]
  | strays id destination gone' =>
    cases gone <;> cases gone' <;> simp [bill, tellings, closings, Failure.marks]
  | _ => cases gone <;> simp [bill, tellings, closings, Failure.marks]

theorem Leaves.processed {op : Operation} {result : Except Failure Unit}
    (h : Leaves op result marks) (gone : Bool) :
    (bill op result marks gone).filterMap Mark.processed? = [(op, result.isOk)] := by
  cases h with
  | unregisters op_eq found => cases found <;> rfl
  | finds op_eq gone' => cases gone' <;> rfl
  | strays id destination gone' => cases gone <;> cases gone' <;> rfl
  | _ => cases gone <;> rfl

theorem Leaves.transits {op : Operation} {result : Except Failure Unit}
    (h : Leaves op result marks) (gone : Bool) :
    (bill op result marks gone).countP Mark.isTransit = if op = .sendMessage then 1 else 0 := by
  cases h with
  | registers op_eq => rcases op_eq with rfl | rfl <;> rfl
  | unregisters op_eq found => rcases op_eq with rfl | rfl <;> cases found <;> rfl
  | finds op_eq gone' => rcases op_eq with rfl | rfl <;> cases gone' <;> rfl
  | misfits op_ne m =>
    cases gone <;> simp [bill, tellings, closings, Failure.marks, Mark.isTransit, op_ne]
  | strays id destination gone' => cases gone <;> cases gone' <;> rfl
  | _ => cases gone <;> rfl

theorem served_envelope {now elapsed : Nanos} {awaited : Bool} {agent : String} {e : Envelope}
    {request : Request} (connected : b.isConnected agent) (asks : e.request = some request) :
    b.served (.command now elapsed awaited (.envelope agent e)) =
      [(request.operation, (b.dispatch now elapsed agent e).1.isOk)] := by
  rw [served, if_pos connected, Envelope.operation?, asks]
  rfl

theorem Entry.admission (h : Entry b e marks) :
    (∃ rest, marks = .admitted :: rest ∧ .admitted ∉ rest ∧ b.crowds e = [b.sessions.size + 1]) ∨
      .admitted ∉ marks ∧ b.crowds e = [] := by
  cases h with
  | @admits now elapsed awaited agent channel ticket fresh =>
    have size := (Marked.withSession fresh channel).sessions
    refine .inl ⟨closings (!awaited), rfl, fun mem => ?_, ?_⟩
    · cases mem_of_mem_closings mem
    · exact (if_neg fresh).trans (congrArg (fun n => [n]) size)
  | rejects connected => exact .inr ⟨by simp, if_pos connected⟩
  | serves gone connected asks ran left =>
    exact .inr ⟨fun mem => (left.apart gone _ mem).1 rfl, rfl⟩
  | delivers => exact .inr ⟨by simp, rfl⟩
  | loses gone => exact .inr ⟨by cases gone <;> simp [closings], rfl⟩
  | passes minor admission served relays =>
    refine .inr ⟨fun mem => Bool.false_ne_true (minor _ mem), ?_⟩
    rw [crowds, admission]

theorem Entry.rejected (h : Entry b e marks) :
    marks.countP (· == .rejected) = (b.refusals e).length := by
  have none {marks : List Mark} (h : .rejected ∉ marks) :
      marks.countP (· == .rejected) = 0 := List.count_eq_zero_of_not_mem h
  cases h with
  | @admits now elapsed awaited agent channel ticket fresh =>
    have refused : b.refusals (.command now elapsed awaited (.connect agent channel ticket)) = [] :=
      if_neg fresh
    rw [refused]
    cases awaited <;> rfl
  | @rejects now elapsed awaited agent channel ticket connected =>
    have refused : b.refusals (.command now elapsed awaited (.connect agent channel ticket)) =
        [agent] := if_pos connected
    rw [refused]
    rfl
  | serves gone connected asks ran left => exact none fun mem => (left.apart gone _ mem).2 rfl
  | delivers => rfl
  | loses gone => cases gone <;> rfl
  | passes minor admission served relays =>
    rw [refusals, admission]
    exact none fun mem => Bool.false_ne_true (minor _ mem)

theorem Entry.processed (h : Entry b e marks) :
    marks.filterMap Mark.processed? = b.served e := by
  cases h with
  | @admits now elapsed awaited => cases awaited <;> rfl
  | rejects connected => rfl
  | serves gone connected asks ran left => rw [left.processed, served_envelope connected asks, ran]
  | delivers => rfl
  | loses gone => cases gone <;> rfl
  | passes minor admission served relays =>
    rw [served, List.filterMap_eq_nil_iff]
    intro k mem
    have small := minor k mem
    cases k <;> first | rfl | cases small

theorem Entry.transits (h : Entry b e marks) :
    marks.countP Mark.isTransit =
      (b.served e).countP (·.1 == .sendMessage) + e.relays.toNat := by
  cases h with
  | @admits now elapsed awaited => cases awaited <;> rfl
  | rejects connected => rfl
  | @serves _ _ _ _ _ request _ _ gone connected asks ran left =>
    rw [left.transits, served_envelope connected asks]
    by_cases letter : request.operation = .sendMessage <;> simp [letter, Event.relays]
  | delivers => rfl
  | loses gone => cases gone <;> rfl
  | passes minor admission served relays =>
    rw [served, relays, List.countP_eq_zero.mpr]
    · rfl
    · intro k mem
      have small := minor k mem
      cases k <;> first | exact Bool.false_ne_true | cases small

/-- The gauge shows the live sessions, and every admission is one of them or has ended. -/
structure Gauged (b : Broker) : Prop where
  active : b.metrics.sessions.active = b.sessions.size
  accepted :
    b.metrics.sessions.accepted = b.metrics.sessions.active + b.metrics.sessions.disconnects

theorem gauged_start (notifications : NotificationSettings) : (start notifications).Gauged := by
  exact ⟨rfl, rfl⟩

theorem Entry.gauge (h : Entry b e marks) (marked : Marked b marks b') (gauged : b.Gauged) :
    b'.Gauged ∧
      b'.metrics.sessions.maxActive = (b.crowds e).foldl max b.metrics.sessions.maxActive := by
  have accepted := marked.tally Metrics.tallies_accepted fun _ => rfl
  have ended := marked.tally Metrics.tallies_disconnects fun _ => rfl
  have sessions : b'.metrics.sessions = (b.metrics.untimed.notes marks).sessions := by
    rw [← marked.metrics]
    rfl
  have size := marked.sessions
  have before := gauged.active
  have balance := gauged.accepted
  rcases h.admission with ⟨rest, rfl, plain, crowds⟩ | ⟨plain, crowds⟩
  · obtain ⟨active, largest⟩ := Metrics.sessions_notes (b.metrics.untimed.note .admitted) plain
    have closed : (Mark.admitted :: rest).countP (· == .closed) = rest.countP (· == .closed) :=
      List.countP_cons_of_neg (by decide)
    have admitted : (Mark.admitted :: rest).countP (· == .admitted) = 1 := by
      rw [List.countP_cons_of_pos (by rfl)]
      exact congrArg (· + 1) (List.count_eq_zero_of_not_mem plain)
    rw [closed] at ended size
    rw [admitted] at accepted size
    have risen : b'.metrics.sessions.active =
        b.metrics.sessions.active + 1 - rest.countP (· == .closed) := by
      rw [sessions]
      exact active
    have most : b'.metrics.sessions.maxActive =
        max b.metrics.sessions.maxActive (b.metrics.sessions.active + 1) := by
      rw [sessions]
      exact largest
    refine ⟨⟨by omega, by omega⟩, ?_⟩
    -- The gauge is at its largest right behind the admission, before anything ends.
    rw [crowds, most, before]
    rfl
  · obtain ⟨active, largest⟩ := Metrics.sessions_notes b.metrics.untimed plain
    have admitted : marks.countP (· == .admitted) = 0 := List.count_eq_zero_of_not_mem plain
    rw [admitted] at accepted size
    have fallen : b'.metrics.sessions.active =
        b.metrics.sessions.active - marks.countP (· == .closed) := by
      rw [sessions]
      exact active
    refine ⟨⟨by omega, by omega⟩, ?_⟩
    rw [crowds, sessions]
    exact largest

theorem after_gauge (h : b.Gauged) (e : Event) :
    (b.after e).Gauged ∧ (b.after e).metrics.sessions.maxActive =
      (b.crowds e).foldl max b.metrics.sessions.maxActive := by
  obtain ⟨marks, entry, marked⟩ := after_entry b e
  exact entry.gauge marked h

theorem maxActive_last (h : b.Gauged) (events : List Event) :
    (Run.last after b events).metrics.sessions.maxActive =
      (Run.log after crowds b events).foldl max b.metrics.sessions.maxActive := by
  induction events generalizing b with
  | nil => rfl
  | cons e rest ih =>
    obtain ⟨gauged, largest⟩ := after_gauge h e
    rw [Run.last_cons, ih gauged, largest, Run.log, List.foldl_append]

/-- Behind every history, the gauge shows the live sessions, the admissions are these and the
sessions that have ended, the largest gauge is that of an admission, and the refused connections are
those of agents with a live session. -/
theorem sessions_balance (notifications : NotificationSettings) (events : List Event) :
    let b := replay notifications events
    b.metrics.sessions.active = b.sessions.size ∧
    b.metrics.sessions.accepted = b.metrics.sessions.active + b.metrics.sessions.disconnects ∧
    b.metrics.sessions.maxActive =
      (Run.log after crowds (start notifications) events).max?.getD 0 ∧
    b.metrics.sessions.rejected =
      (Run.log after refusals (start notifications) events).length := by
  have gauged : (replay notifications events).Gauged :=
    Run.last_induction (P := Gauged) (fun b e h => (after_gauge h e).1) _
      (gauged_start notifications) events
  have largest := maxActive_last (gauged_start notifications) events
  have none : (start notifications).metrics.sessions.maxActive = 0 := rfl
  rw [none, List.foldl_max, Nat.zero_max] at largest
  have refused (b : Broker) (e : Event) : (b.after e).metrics.sessions.rejected =
      b.metrics.sessions.rejected + (b.refusals e).countP fun _ => true := by
    obtain ⟨marks, entry, marked⟩ := after_entry b e
    rw [List.countP_true, ← entry.rejected]
    exact marked.tally Metrics.tallies_rejected fun _ => rfl
  have rejected := Run.counter_last (f := fun b => b.metrics.sessions.rejected) refused
    (start notifications) events
  rw [List.countP_true] at rejected
  exact ⟨gauged.active, gauged.accepted, largest, rejected.trans (Nat.zero_add _)⟩

theorem tallied_replay {f : Metrics → Nat} {q : Mark → Bool} {p : Operation × Bool → Bool}
    (tallies : Metrics.Tallies f q) (timeless : ∀ m, f m.untimed = f m)
    (leaves : ∀ {b e marks}, Entry b e marks → marks.countP q = (b.served e).countP p)
    (notifications : NotificationSettings) (fresh : f (start notifications).metrics = 0)
    (events : List Event) :
    f (replay notifications events).metrics =
      (Run.log after served (start notifications) events).countP p := by
  have step (b : Broker) (e : Event) :
      f (b.after e).metrics = f b.metrics + (b.served e).countP p := by
    obtain ⟨marks, entry, marked⟩ := after_entry b e
    rw [marked.tally tallies timeless, leaves entry]
  have counted := Run.counter_last (f := fun b => f b.metrics) step (start notifications) events
  rw [fresh, Nat.zero_add] at counted
  exact counted

theorem counter_replay {f : Metrics → Nat} {p : Operation × Bool → Bool}
    (tallies : Metrics.Tallies f (Mark.reports p)) (timeless : ∀ m, f m.untimed = f m)
    (notifications : NotificationSettings) (fresh : f (start notifications).metrics = 0)
    (events : List Event) :
    f (replay notifications events).metrics =
      (Run.log after served (start notifications) events).countP p := by
  refine tallied_replay tallies timeless (fun entry => ?_) notifications fresh events
  rw [Mark.countP_reports, entry.processed]

theorem transits_last (b : Broker) (events : List Event) :
    let transits (m : Metrics) := m.routing.routed + m.routing.failures + m.routing.protocolErrors
    transits (Run.last after b events).metrics = transits b.metrics +
      (Run.log after served b events).countP (·.1 == .sendMessage) +
      events.countP Event.relays := by
  induction events generalizing b with
  | nil => rfl
  | cons e rest ih =>
    obtain ⟨marks, entry, marked⟩ := after_entry b e
    have step := marked.tally Metrics.tallies_transits fun _ => rfl
    rw [entry.transits] at step
    dsimp only at ih ⊢
    rw [Run.last_cons, ih, step, Run.log, List.countP_append, List.countP_cons]
    cases e.relays <;> simp <;> omega

/-- Behind every history, every request of a connected agent is counted once under its operation,
with its outcome, and every message once by where it has come to. -/
theorem routing_balance (notifications : NotificationSettings) (events : List Event) :
    let m := (replay notifications events).metrics
    let requests := Run.log after served (start notifications) events
    m.routing.envelopes = requests.length ∧
    m.routing.envelopes = Map.total (·.count) m.operations ∧
    (∀ op, (m.requests op).count = requests.countP (·.1 == op) ∧
      (m.requests op).failures = requests.countP fun r => r.1 == op && !r.2) ∧
    (m.requests .sendMessage).count + events.countP Event.relays =
      m.routing.routed + m.routing.failures + m.routing.protocolErrors := by
  intro m requests
  have none : (start notifications).metrics.operations = ∅ := rfl
  have unasked (op : Operation) : (start notifications).metrics.requests op = ⟨0, 0⟩ := by
    rw [Metrics.requests, none, Std.ExtTreeMap.getD_empty]
  have envelopes : m.routing.envelopes = requests.length := by
    rw [← List.countP_true]
    exact counter_replay Metrics.tallies_envelopes (fun _ => rfl) notifications rfl events
  have operations : Map.total (·.count) m.operations = requests.length := by
    rw [← List.countP_true]
    refine counter_replay Metrics.tallies_operations (fun _ => rfl) notifications ?_ events
    rw [none, Map.total, Map.values_eq_map_toList]
    rfl
  have counts (op : Operation) : (m.requests op).count = requests.countP (·.1 == op) :=
    counter_replay (Metrics.tallies_count op) (fun _ => rfl) notifications (by rw [unasked]) events
  have failures (op : Operation) :
      (m.requests op).failures = requests.countP fun r => r.1 == op && !r.2 :=
    counter_replay (Metrics.tallies_failures op) (fun _ => rfl) notifications (by rw [unasked])
      events
  refine ⟨envelopes, envelopes.trans operations.symm, fun op => ⟨counts op, failures op⟩, ?_⟩
  have transits := transits_last (.start notifications) events
  rw [counts]
  exact (transits.trans (congrArg (· + _) (Nat.zero_add _))).symm

end AgentBroker.Broker
