import AgentBroker.Proofs.Broker.Apart
import AgentBroker.Proofs.Broker.Filing

/-!
# Agents that leave

An agent that is disconnected takes along its session, its services, its description and its
negotiations, and nothing that belongs to others. When several agents leave, it makes no difference
in which order they do, or how often each of them is disconnected.
-/

namespace AgentBroker.Broker

variable {b b' : Broker} {agent other : String} {notifications : NotificationSettings}

/-- `b'` is `b` without one agent. -/
structure Deprived (agent : String) (b b' : Broker) : Prop where
  session : ∀ other, b'.session? other = if other = agent then none else b.session? other
  service : ∀ other model, b'.directory.service? other model =
    if other = agent then none else b.directory.service? other model
  description : ∀ other, b'.directory.description? other =
    if other = agent then none else b.directory.description? other
  negotiation : ∀ id n, b'.ledger.get? id = some n ↔
    b.ledger.get? id = some n ∧ n.initiator ≠ agent ∧ n.responder ≠ agent
  retired : ∀ id, b'.ledger.isRetired id ↔ b.ledger.isRetired id ∨
    ∃ n, b.ledger.get? id = some n ∧ (n.initiator = agent ∨ n.responder = agent)
  notifications : b'.notifications = b.notifications
  mailboxes : b'.mailboxes = b.mailboxes

def disconnectAll (b : Broker) (agents : List String) : Broker :=
  Run.last (fun b agent => (b.disconnect agent).2) b agents

theorem deprived_drop (b : Broker) (agent : String) : Deprived agent b (b.drop agent) where
  session other := session?_drop
  service other model := Directory.service?_removeAgent
  description other := Directory.description?_removeAgent
  negotiation id n := by
    rw [ledger_drop, Option.filter_eq_some_iff, Bool.not_eq_true', Bool.eq_false_iff, Ne,
      Negotiation.involves_iff, not_or]
  retired id := by
    simp only [← Negotiation.involves_iff]
    exact (Ledger.isRetired_retireWhere fun n => n.involves agent).trans or_comm
  notifications := rfl
  mailboxes := rfl

theorem Coherent.deprived (h : b.Coherent) (absent : b.isConnected agent = false) :
    Deprived agent b b where
  session other := by
    split
    next same => rw [same, session?_eq_none_iff.mpr absent]
    · rfl
  service other model := by
    split
    next same => rw [same, (h.lacks absent).service? model]
    · rfl
  description other := by
    split
    next same => rw [same]; exact (h.lacks absent).2
    · rfl
  negotiation id n := by
    refine ⟨fun ongoing => ⟨ongoing, ?_⟩, And.left⟩
    obtain ⟨initiator, responder⟩ := h.negotiating id n ongoing
    constructor
    · rintro rfl
      rw [absent] at initiator
      cases initiator
    · rintro rfl
      rw [absent] at responder
      cases responder
  retired id := by
    refine ⟨.inl, fun retired => retired.resolve_right ?_⟩
    rintro ⟨n, ongoing, own⟩
    obtain ⟨initiator, responder⟩ := h.negotiating id n ongoing
    rcases own with rfl | rfl
    · rw [absent] at initiator
      cases initiator
    · rw [absent] at responder
      cases responder
  notifications := rfl
  mailboxes := rfl

theorem isConnected_drop :
    (b.drop agent).isConnected other = (other != agent && b.isConnected other) := by
  rw [Bool.eq_iff_iff, isConnected_iff, session?_drop]
  by_cases same : other = agent
  · simp [same]
  · simp [same, isConnected_iff]

theorem drop_comm (b : Broker) (agent other : String) :
    (b.drop agent).drop other = (b.drop other).drop agent := by
  have sessions : (b.sessions.erase agent).erase other = (b.sessions.erase other).erase agent :=
    Map.erase_comm b.sessions agent other
  have directory : (b.directory.removeAgent agent).removeAgent other =
      (b.directory.removeAgent other).removeAgent agent := by
    simp only [Directory.removeAgent, Map.erase_comm _ agent other]
  have ledger : ((b.ledger.removeAgent agent).2.removeAgent other).2 =
      ((b.ledger.removeAgent other).2.removeAgent agent).2 := by
    change (b.ledger.without (· == agent)).without (· == other) =
      (b.ledger.without (· == other)).without (· == agent)
    simp only [Ledger.without_without, Bool.or_comm]
  simp only [drop, count, sessions, directory, ledger]

theorem disconnect_eq (b : Broker) (agent : String) :
    (b.disconnect agent).2 = if b.isConnected agent then b.drop agent else b := by
  rw [disconnect]
  split
  · rfl
  · rfl

theorem disconnect_comm (b : Broker) (agent other : String) :
    ((b.disconnect agent).2.disconnect other).2 = ((b.disconnect other).2.disconnect agent).2 := by
  by_cases same : other = agent
  · rw [same]
  have kept : (b.drop agent).isConnected other = b.isConnected other := by
    simp [isConnected_drop, same]
  have kept' : (b.drop other).isConnected agent = b.isConnected agent := by
    simp [isConnected_drop, Ne.symm same]
  simp only [disconnect_eq]
  by_cases own : b.isConnected agent
  · by_cases another : b.isConnected other
    · simp [own, another, kept, kept', drop_comm b agent other]
    · simp [own, another, kept]
  · by_cases another : b.isConnected other
    · simp [own, another, kept']
    · simp [own, another]

theorem disconnect_idem (b : Broker) (agent : String) :
    ((b.disconnect agent).2.disconnect agent).2 = (b.disconnect agent).2 := by
  have gone : (b.disconnect agent).2.isConnected agent = false :=
    session?_eq_none_iff.mp (session?_disconnect b agent)
  rw [disconnect_eq (b.disconnect agent).2, gone, if_neg Bool.false_ne_true]

/-- In every state that can come about, an agent that is disconnected takes along what belongs to it
and nothing else, and one without a session has nothing to take along. When several agents are
disconnected, only who they are makes a difference. -/
theorem disconnect_exact (h : Reachable notifications b) (agent : String) :
    (b.isConnected agent →
      (b.disconnect agent).1 = true ∧ Deprived agent b (b.disconnect agent).2) ∧
    (¬ b.isConnected agent → b.disconnect agent = (false, b) ∧ Deprived agent b b) ∧
    ∀ xs ys : List String, (∀ a, a ∈ xs ↔ a ∈ ys) → b.disconnectAll xs = b.disconnectAll ys := by
  obtain ⟨events, rfl⟩ := reachable_iff.mp h
  refine ⟨fun connected => ?_, fun absent => ?_, fun xs ys same => ?_⟩
  · rw [disconnect, if_pos connected]
    exact ⟨rfl, deprived_drop _ agent⟩
  · rw [disconnect, if_neg absent]
    have coherent := coherent_replay notifications events
    exact ⟨rfl, coherent.deprived (Bool.eq_false_iff.mpr absent)⟩
  · exact Run.last_eq_of_mem_iff disconnect_comm disconnect_idem same _

/-- Two agents that negotiate leave, in both orders. -/
theorem disconnect_exact_negotiating :
    let b := replay default [.command 0 0 true (.connect "seller" 0 0),
      .command 0 0 true (.connect "buyer" 1 1),
      .command 0 0 true (.envelope "buyer" (.negotiation "sale" "seller" 1 0 (.call (.text "?"))))]
    (b.ledger.get? "sale").isSome ∧ Deprived "seller" b (b.disconnect "seller").2 ∧
      (b.disconnect "seller").2.ledger.isRetired "sale" ∧
      b.disconnectAll ["buyer", "seller"] = b.disconnectAll ["seller", "buyer", "seller"] := by
  intro b
  have reachable : Reachable default b := reachable_iff.mpr ⟨_, rfl⟩
  obtain ⟨leaves, -, order⟩ := disconnect_exact reachable "seller"
  have deprived := (leaves (by decide +kernel)).2
  exact ⟨by decide +kernel, deprived, by decide +kernel, order _ _ (by simp)⟩

end AgentBroker.Broker
