import AgentBroker.Proofs.Negotiation.Standing

/-!
# Negotiations that wait for an answer

A ledger holds only negotiations that wait for an answer: the responder has still to answer the
call, or the initiator has still to answer the proposal of somebody else. So one party has sent what
the other one has received. Each negotiation stands under its own id, and an id that is retired
stays so.
-/

namespace AgentBroker

namespace Negotiation

variable {n : Negotiation}

/-- The last message of the negotiation waits for its answer. -/
structure Pending (n : Negotiation) : Prop where
  stage : n.stage = .called ∨ n.stage = .proposed
  number : 1 ≤ n.initiatorLast
  called : n.stage = .called → n.responderLast = 0 ∧ n.lastSender = .initiator
  proposed : n.stage = .proposed →
    n.initiator ≠ n.responder ∧ 1 ≤ n.responderLast ∧ n.lastSender = .responder

/-- The last sender sees its move as sent, and the other party sees the same move as received. -/
def Mirrored (n : Negotiation) : Prop :=
  ∃ move, n.phase n.lastSender = ⟨move, true⟩ ∧ n.phase n.lastSender.other = ⟨move, false⟩

theorem Pending.mirrored (h : n.Pending) : n.Mirrored := by
  rcases h.stage with called | proposed
  · obtain ⟨-, sender⟩ := h.called called
    exact ⟨.call, by rw [phase, called, sender]; rfl, by rw [phase, called, sender]; rfl⟩
  · obtain ⟨-, -, sender⟩ := h.proposed proposed
    exact ⟨.propose, by rw [phase, proposed, sender]; rfl, by rw [phase, proposed, sender]; rfl⟩

theorem pending_start (now : Nanos) (initiator responder id : String) {msgId : UInt32}
    (number : msgId ≠ 0) : (start now initiator responder id msgId).Pending where
  stage := .inl rfl
  number := Ledger.one_le_of_ne_zero number
  called _ := ⟨rfl, rfl⟩
  proposed differ := nomatch differ

theorem Pending.record {side : Side} {move : Move} {stage : Stage} {sender : String}
    {msgId : UInt32} (h : n.Pending) (now : Nanos) (own : n.sideOf? sender = some side)
    (moves : n.stage.next? side move = some stage) (rising : n.last side < msgId)
    (going : stage.isTerminal = false) : (n.record now side msgId stage).Pending := by
  rcases Stage.next?_eq_some moves with ⟨-, rfl, -, rfl⟩ | ⟨-, -, -, rfl⟩ | ⟨-, -, -, rfl⟩ |
    ⟨-, -, -, rfl⟩
  · obtain ⟨responder, apart⟩ := sideOf?_eq_responder own
    have positive : msgId ≠ 0 :=
      UInt32.pos_iff_ne_zero.mp (UInt32.lt_of_le_of_lt UInt32.zero_le rising)
    constructor
    · exact .inr rfl
    · exact h.number
    · intro differ
      cases differ
    · exact fun _ => ⟨responder ▸ apart.symm, Ledger.one_le_of_ne_zero positive, rfl⟩
  · cases going
  · cases going
  · cases going

end Negotiation

namespace Ledger

variable {l : Ledger} {id : String} {p : Posting}

/-- The ledger is well kept, and all its negotiations wait for an answer. -/
structure Consistent (l : Ledger) : Prop extends WellKept l where
  pending : ∀ id n, l.get? id = some n → n.Pending

theorem consistent_empty : Consistent .empty where
  toWellKept := wellKept_empty
  pending id n ongoing := by simp at ongoing

theorem Accepts.pending {now : Nanos} {n : Negotiation} (h : l.Accepts now id p n)
    (prior : ∀ n, l.get? id = some n → n.Pending) (going : n.stage.isTerminal = false) :
    n.Pending := by
  cases h with
  | call _ _ _ _ number => exact Negotiation.pending_start now p.sender p.receiver id number
  | next ongoing sender _ move number =>
    rw [Negotiation.record_stage] at going
    exact (prior _ ongoing).record now sender move number going

theorem Consistent.act (h : l.Consistent) (a : Action) : (l.act a).Consistent where
  toWellKept := wellKept_act h.toWellKept a
  pending := by
    intro id n ongoing
    rcases act_cases h.toWellKept a id with ⟨now, p, next, -, accepts, after⟩ | ⟨-, -, gone, -⟩ |
      ⟨-, -, same, -⟩
    · rw [after, get?_file, if_pos (accepts.id_eq h.toWellKept).symm] at ongoing
      split at ongoing
      · cases ongoing
      next going =>
        cases ongoing
        exact accepts.pending (h.pending id) (Bool.eq_false_iff.mpr going)
    · rw [gone] at ongoing
      cases ongoing
    · rw [same] at ongoing
      exact h.pending id n ongoing

theorem consistent_replay (actions : List Action) : (replay actions).Consistent :=
  Run.last_induction (P := Consistent) (fun _ a h => h.act a) .empty consistent_empty actions

/-- In every ledger that can come about, each negotiation stands under its own id, which is not
retired, and waits for an answer: one party sees its last move as sent, and the other one sees it as
received. Ids that are retired stay retired. -/
theorem pending_replay (actions : List Action) :
    (∀ id n, (replay actions).get? id = some n →
      n.id = id ∧ (replay actions).isRetired id = false ∧ n.Pending ∧ n.Mirrored) ∧
    ∀ before after id, actions = before ++ after → (replay before).isRetired id →
      (replay actions).isRetired id := by
  constructor
  · intro id n ongoing
    have consistent := consistent_replay actions
    have pending := consistent.pending id n ongoing
    exact ⟨consistent.keyed id n ongoing, consistent.apart id n ongoing, pending, pending.mirrored⟩
  · rintro before after id rfl retired
    rw [replay, Run.last_append]
    exact (retired_run (wellKept_replay before) retired after).2

end Ledger

end AgentBroker
