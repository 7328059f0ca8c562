import AgentBroker.Proofs.Negotiation.Legality

/-!
# Conversations that can be finished

One more message of the party whose turn it is finishes a conversation. There are two kinds that
nothing can finish: an agent calls for proposals from itself, or the initiator has been proposed
something and has no number left to answer with. Under their ids no message is accepted any more.
-/

namespace AgentBroker.Ledger

def Posting.sent (now : Nanos) (id : String) (p : Posting) : Action :=
  .observe now p.sender p.receiver id p.message

def Posting.IsBetween (n : Negotiation) (p : Posting) : Prop :=
  p.sender = n.initiator ∧ p.receiver = n.responder ∨
    p.sender = n.responder ∧ p.receiver = n.initiator

def view? (l : Ledger) (id : String) : Action → Option Negotiation
  | .observe now sender receiver other m =>
    if other = id then (l.observe now sender receiver other m).toOption.map (·.1) else none
  | _ => none

/-- The states that a conversation goes through in the course of a run, oldest first. -/
def views (l : Ledger) (id : String) (actions : List Action) : List Negotiation :=
  Run.log act (fun l a => (l.view? id a).toList) l actions

/-- A run brings the conversation of an id to its last stage. -/
def Finishes (l : Ledger) (id : String) (actions : List Action) : Prop :=
  ∃ n ∈ l.views id actions, n.stage.isTerminal

/-- Nobody can say anything more in the conversation. -/
def Stuck (n : Negotiation) : Prop :=
  n.initiator = n.responder ∨ n.stage = .proposed ∧ n.initiatorLast.toNat = UInt32.size - 1

variable {l : Ledger} {id : String} {n : Negotiation} {thread : List Posting}

theorem view?_eq_none {a : Action} (silent : l.posting? id a = none) : l.view? id a = none := by
  cases a with
  | observe now sender receiver other m =>
    simp only [posting?, ite_eq_right_iff, reduceCtorEq, imp_false, not_and] at silent
    simp only [view?, ite_eq_right_iff]
    intro same
    cases result : l.observe now sender receiver other m with
    | error breach => rfl
    | ok answer =>
      rw [result] at silent
      exact absurd rfl (silent same)
  | retire other => rfl
  | removeAgent agent => rfl
  | expireIdle now maxIdle => rfl

theorem views_eq_nil {actions : List Action} (silent : l.accepted id actions = []) :
    l.views id actions = [] := by
  induction actions generalizing l with
  | nil => rfl
  | cons a rest ih =>
    obtain ⟨here, later⟩ := List.append_eq_nil_iff.mp silent
    rw [views, Run.log, view?_eq_none (Option.toList_eq_nil_iff.mp here)]
    exact ih later

theorem Stuck.not_legal (stuck : Stuck n) (threaded : l.Threaded id thread)
    (ongoing : l.get? id = some n) {p : Posting} : ¬ Legal l id thread p := by
  intro legal
  cases legal with
  | call _ unopened =>
    rw [unopened] at ongoing
    cases ongoing
  | reply found apart stage =>
    obtain rfl : _ = n := Option.some.inj (found.symm.trans ongoing)
    rcases stuck with same | ⟨proposed, -⟩
    · exact apart same
    · rw [stage] at proposed
      cases proposed
  | closing found apart stage _ _ _ _ _ number =>
    obtain rfl : _ = n := Option.some.inj (found.symm.trans ongoing)
    rcases stuck with same | ⟨-, full⟩
    · exact apart same
    · have tells := threaded.recorded.ongoing _ ongoing
      cases tells with
      | proposed opens =>
        rw [← opens.last, UInt32.lt_iff_toNat_lt, full] at number
        have bound := p.message.msgId.toNat_lt_size
        omega

/-- Under the id of a conversation that is stuck nothing is accepted any more, whatever else
happens. -/
theorem Stuck.accepted_eq_nil (stuck : Stuck n) (threaded : l.Threaded id thread)
    (ongoing : l.get? id = some n) (further : List Action) : l.accepted id further = [] := by
  induction further generalizing l thread with
  | nil => rfl
  | cons a rest ih =>
    have next := threaded.act a
    rcases act_cases threaded.wellKept a id with ⟨now, p, next, -, accepts, -⟩ |
      ⟨silent, -, -, retired⟩ | ⟨silent, -, same, -⟩
    · exact absurd (accepts.legal threaded) (stuck.not_legal threaded ongoing)
    · rw [accepted, Run.log, silent]
      exact Ledger.accepted_eq_nil next.wellKept id retired rest
    · rw [accepted, Run.log, silent]
      exact ih next (same.trans ongoing)

theorem finishes_of_move {p : Posting} {side : Side} {stage : Stage}
    (ongoing : l.get? id = some n) (own : n.sideOf? p.sender = some side)
    (other : n.party side.other = p.receiver) (asks : p.message.step.move ≠ .call)
    (move : n.stage.next? side p.message.step.move = some stage) (done : stage.isTerminal)
    (number : n.last side < p.message.msgId) (target : p.message.target = n.last side.other)
    (now : Nanos) : l.Finishes id [p.sent now id] := by
  have observed : l.observe now p.sender p.receiver id p.message = _ :=
    observe_reply ongoing asks own other move number target
  refine ⟨n.record now side p.message.msgId stage, ?_, ?_⟩
  · simp [views, Run.log, view?, Posting.sent, observed, Except.toOption]
  · rw [Negotiation.record_stage, done]

theorem exists_finishing (threaded : l.Threaded id thread) (ongoing : l.get? id = some n)
    (free : ¬ Stuck n) (now : Nanos) :
    ∃ p : Posting, p.IsBetween n ∧ l.Finishes id [p.sent now id] := by
  obtain ⟨apart, room⟩ := not_or.mp free
  have tells := threaded.recorded.ongoing n ongoing
  cases tells with
  | called opens called =>
    let p : Posting := ⟨n.responder, n.initiator, ⟨1, n.initiatorLast, .decline⟩⟩
    refine ⟨p, .inr ⟨rfl, rfl⟩, ?_⟩
    have moves : n.stage.next? .responder p.message.step.move = some .declined := by
      rw [called]
      rfl
    have number : n.last .responder < p.message.msgId := by
      show n.responderLast < 1
      rw [threaded.fresh n ongoing called]
      decide
    exact finishes_of_move ongoing (Negotiation.sideOf?_responder apart) rfl Move.noConfusion moves
      rfl number rfl now
  | proposed opens answers propose proposed =>
    let p : Posting := ⟨n.initiator, n.responder, ⟨n.initiatorLast + 1, n.responderLast, .accept⟩⟩
    refine ⟨p, .inl ⟨rfl, rfl⟩, ?_⟩
    have moves : n.stage.next? .initiator p.message.step.move = some .accepted := by
      rw [proposed]
      rfl
    have number : n.last .initiator < p.message.msgId := by
      have below : n.initiatorLast.toNat ≠ UInt32.size - 1 := fun full => room ⟨proposed, full⟩
      have bound := n.initiatorLast.toNat_lt_size
      have size : UInt32.size = 4294967296 := rfl
      show n.initiatorLast < n.initiatorLast + 1
      rw [UInt32.lt_iff_toNat_lt, UInt32.toNat_add, UInt32.toNat_one]
      omega
    exact finishes_of_move ongoing (Negotiation.sideOf?_initiator n) rfl Move.noConfusion moves
      rfl number rfl now

/-- The parties of an ongoing conversation can bring it to its last stage, at any time, exactly if
they are two agents and the initiator does not have to answer a proposal with its numbers used up.
Otherwise nothing that happens to the ledger brings it there. -/
theorem finishable_iff (actions : List Action) (id : String) (n : Negotiation)
    (ongoing : (replay actions).get? id = some n) (now : Nanos) :
    ((∃ posts : List Posting, (∀ p ∈ posts, p.IsBetween n) ∧
        (replay actions).Finishes id (posts.map (·.sent now id))) ↔
      n.initiator ≠ n.responder ∧
        ¬ (n.stage = .proposed ∧ n.initiatorLast.toNat = UInt32.size - 1)) ∧
    (n.initiator = n.responder ∨ n.stage = .proposed ∧ n.initiatorLast.toNat = UInt32.size - 1 →
      ∀ further, ¬ (replay actions).Finishes id further) := by
  have threaded : (replay actions).Threaded id (accepted .empty id actions) :=
    (threaded_empty id).run actions
  have never (stuck : Stuck n) (further : List Action) :
      ¬ (replay actions).Finishes id further := by
    rintro ⟨v, mem, -⟩
    rw [views_eq_nil (stuck.accepted_eq_nil threaded ongoing further)] at mem
    cases mem
  refine ⟨⟨?_, ?_⟩, never⟩
  · rintro ⟨posts, -, finishes⟩
    exact not_or.mp fun stuck => never stuck _ finishes
  · intro free
    obtain ⟨p, between, finishes⟩ := exists_finishing threaded ongoing (not_or.mpr free) now
    refine ⟨[p], ?_, finishes⟩
    intro q mem
    rw [List.mem_singleton.mp mem]
    exact between

/-- A call with the last number that there is, and a proposal. -/
def exhausted : List Action :=
  [.observe 0 "buyer" "seller" "books" ⟨4294967295, 0, .call .nothing⟩,
    .observe 1 "seller" "buyer" "books" ⟨1, 4294967295, .propose (.text "9 each")⟩]

theorem finishable_iff_exhausted :
    (replay exhausted).get? "books" =
      some ⟨"books", "buyer", "seller", .proposed, 4294967295, 1, .responder, 1⟩ ∧
    ∀ further, ¬ (replay exhausted).Finishes "books" further := by
  have ongoing : (replay exhausted).get? "books" =
      some ⟨"books", "buyer", "seller", .proposed, 4294967295, 1, .responder, 1⟩ := rfl
  refine ⟨ongoing, ?_⟩
  exact (finishable_iff exhausted "books" _ ongoing 2).2 (.inr ⟨rfl, rfl⟩)

end AgentBroker.Ledger
