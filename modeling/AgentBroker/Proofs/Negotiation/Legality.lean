import AgentBroker.Proofs.Negotiation.Standing

/-!
# Legal messages

A ledger accepts exactly the messages that are due under an id: a call where there has been none, an
answer to the call by the responder, and an answer to the proposal by the initiator. Who calls for
proposals from itself is always taken for the initiator, so nobody can answer its call. A message
that is refused leaves the ledger as it is, and one that is accepted changes nothing but the
conversation under its id.
-/

namespace AgentBroker

namespace Negotiation

variable {n : Negotiation}

@[simp] theorem sideOf?_initiator (n : Negotiation) : n.sideOf? n.initiator = some .initiator := by
  simp [sideOf?]

theorem sideOf?_responder (apart : n.initiator ≠ n.responder) :
    n.sideOf? n.responder = some .responder := by
  simp [sideOf?, apart.symm]

@[simp] theorem sideOf?_record (now : Nanos) (side : Side) (msgId : UInt32) (stage : Stage)
    (agent : String) : (n.record now side msgId stage).sideOf? agent = n.sideOf? agent := by
  simp [sideOf?]

@[simp] theorem party_record (now : Nanos) (side other : Side) (msgId : UInt32) (stage : Stage) :
    (n.record now side msgId stage).party other = n.party other := by
  cases other <;> simp [party]

theorem phase_record {side : Side} {move : Move} {stage : Stage}
    (moves : n.stage.next? side move = some stage) (now : Nanos) (msgId : UInt32) :
    (n.record now side msgId stage).phase side = ⟨move, true⟩ ∧
      (n.record now side msgId stage).phase side.other = ⟨move, false⟩ := by
  rcases Stage.next?_eq_some moves with ⟨-, rfl, rfl, rfl⟩ | ⟨-, rfl, rfl, rfl⟩ |
    ⟨-, rfl, rfl, rfl⟩ | ⟨-, rfl, rfl, rfl⟩ <;> exact ⟨rfl, rfl⟩

end Negotiation

namespace Ledger

variable {l : Ledger} {id : String} {thread : List Posting} {p : Posting}

/-- A message is due under an id, behind the messages accepted under it so far. -/
inductive Legal (l : Ledger) (id : String) : List Posting → Posting → Prop
  | call {thread : List Posting} {p : Posting} (move : p.message.step.move = .call)
      (unopened : l.get? id = none) (unretired : l.isRetired id = false)
      (target : p.message.target = 0) (number : p.message.msgId ≠ 0) : Legal l id thread p
  /-- `p` answers the call `c`. -/
  | reply {n : Negotiation} {c p : Posting} (ongoing : l.get? id = some n)
      (apart : n.initiator ≠ n.responder) (stage : n.stage = .called)
      (called : c.message.step.move = .call)
      (sender : p.sender = n.responder) (receiver : p.receiver = n.initiator)
      (move : p.message.step.move = .propose ∨ p.message.step.move = .decline)
      (number : 1 ≤ p.message.msgId) (target : p.message.target = c.message.msgId) :
      Legal l id [c] p
  /-- `p` answers the proposal `r`, which answers the call `c`. -/
  | closing {n : Negotiation} {c r p : Posting} (ongoing : l.get? id = some n)
      (apart : n.initiator ≠ n.responder) (stage : n.stage = .proposed)
      (called : c.message.step.move = .call) (proposed : r.message.step.move = .propose)
      (sender : p.sender = n.initiator) (receiver : p.receiver = n.responder)
      (move : p.message.step.move = .accept ∨ p.message.step.move = .decline)
      (number : c.message.msgId < p.message.msgId) (target : p.message.target = r.message.msgId) :
      Legal l id [c, r] p

/-- What an accepted message leaves behind: `n` is the conversation that it is answered with, `l'`
the ledger. -/
structure Settles (l : Ledger) (id : String) (p : Posting) (n : Negotiation) (l' : Ledger) :
    Prop where
  entry : l'.get? id = if n.stage.isTerminal then none else some n
  retired : l'.isRetired id = n.stage.isTerminal
  others : ∀ other, other ≠ id →
    l'.get? other = l.get? other ∧ l'.isRetired other = l.isRetired other
  phases : ∃ side, n.sideOf? p.sender = some side ∧ n.party side.other = p.receiver ∧
    n.phase side = ⟨p.message.step.move, true⟩ ∧
    n.phase side.other = ⟨p.message.step.move, false⟩

theorem Tells.apart {c r : Posting} {n : Negotiation} (tells : Tells [c, r] n) :
    n.initiator ≠ n.responder := by
  cases tells with
  | proposed opens answers =>
    intro same
    apply answers.alternate
    rw [answers.sender, ← opens.responder, ← opens.initiator, same]

theorem Accepts.legal {now : Nanos} {n : Negotiation} (h : l.Accepts now id p n)
    (threaded : l.Threaded id thread) : Legal l id thread p := by
  cases h with
  | call move unused unknown target number => exact .call move unknown unused target number
  | @next prior side stage ongoing sender receiver move number target =>
    have tells := threaded.recorded.ongoing prior ongoing
    have moves := Stage.next?_eq_some move
    cases tells with
    | called opens called =>
      have answers : side = .responder ∧
          (p.message.step.move = .propose ∨ p.message.step.move = .decline) := by
        simp only [called, reduceCtorEq, false_and, or_false, true_and] at moves
        rcases moves with ⟨own, propose, -⟩ | ⟨own, decline, -⟩
        · exact ⟨own, .inl propose⟩
        · exact ⟨own, .inr decline⟩
      obtain ⟨rfl, due⟩ := answers
      obtain ⟨responder, differ⟩ := Negotiation.sideOf?_eq_responder sender
      apply Legal.reply ongoing _ called opens.move responder receiver.symm due
      · rw [Negotiation.last, threaded.fresh prior ongoing called] at number
        exact one_le_of_ne_zero (UInt32.pos_iff_ne_zero.mp number)
      · exact target.trans opens.last
      · exact fun same => differ (responder.trans same.symm)
    | proposed opens reply propose proposed last =>
      have answers : side = .initiator ∧
          (p.message.step.move = .accept ∨ p.message.step.move = .decline) := by
        simp only [proposed, reduceCtorEq, false_and, false_or, true_and] at moves
        rcases moves with ⟨own, accept, -⟩ | ⟨own, decline, -⟩
        · exact ⟨own, .inl accept⟩
        · exact ⟨own, .inr decline⟩
      obtain ⟨rfl, due⟩ := answers
      have initiator := Negotiation.sideOf?_eq_initiator sender
      have apart := (threaded.recorded.ongoing prior ongoing).apart
      apply Legal.closing ongoing apart proposed opens.move propose initiator receiver.symm due
      · rw [← opens.last]
        exact number
      · exact target.trans last

theorem Legal.isOk (h : Legal l id thread p) (threaded : l.Threaded id thread) (now : Nanos) :
    (l.observe now p.sender p.receiver id p.message).isOk := by
  cases h with
  | call move unopened unretired target number =>
    exact observe_isOk_call move unretired unopened target number
  | @reply n c _ ongoing apart stage called sender receiver move number target =>
    have tells := threaded.recorded.ongoing n ongoing
    have moves : ∃ next, n.stage.next? .responder p.message.step.move = some next := by
      rcases move with move | move <;> simp [stage, move, Stage.next?]
    obtain ⟨next, moves⟩ := moves
    have peer : n.party Side.responder.other = p.receiver := receiver.symm
    apply observe_isOk_reply ongoing _ _ peer moves
    · rw [Negotiation.last, threaded.fresh n ongoing stage]
      exact UInt32.lt_of_lt_of_le (by decide) number
    · cases tells with
      | called opens => exact target.trans opens.last.symm
    · rcases move with move | move <;> simp [move]
    · rw [sender, Negotiation.sideOf?_responder apart]
  | @closing n c r _ ongoing apart stage called proposed sender receiver move number target =>
    have tells := threaded.recorded.ongoing n ongoing
    have moves : ∃ next, n.stage.next? .initiator p.message.step.move = some next := by
      rcases move with move | move <;> simp [stage, move, Stage.next?]
    obtain ⟨next, moves⟩ := moves
    cases tells with
    | proposed opens answers propose proposed last =>
      have peer : n.party Side.initiator.other = p.receiver := receiver.symm
      apply observe_isOk_reply ongoing _ _ peer moves
      · rw [Negotiation.last, opens.last]
        exact number
      · exact target.trans last.symm
      · rcases move with move | move <;> simp [move]
      · rw [sender, Negotiation.sideOf?_initiator]

theorem Accepts.settles {now : Nanos} {n : Negotiation} (hl : l.WellKept)
    (h : l.Accepts now id p n) : l.Settles id p n (l.file n) := by
  have key := h.id_eq hl
  constructor
  · rw [get?_file, if_pos key.symm]
  · rw [Bool.eq_iff_iff, isRetired_file, h.not_retired hl]
    simp [key]
  · intro other apart
    have away : other ≠ n.id := key ▸ apart
    constructor
    · rw [get?_file, if_neg away]
    · rw [Bool.eq_iff_iff, isRetired_file]
      simp [away]
  · cases h with
    | call move =>
      exact ⟨.initiator, Negotiation.sideOf?_initiator _, rfl, by rw [move]; rfl, by rw [move]; rfl⟩
    | @next prior side stage ongoing sender receiver move =>
      refine ⟨side, ?_, ?_, Negotiation.phase_record move now p.message.msgId⟩
      · rw [Negotiation.sideOf?_record, sender]
      · rw [Negotiation.party_record, receiver]

/-- In every ledger that can come about, the messages accepted under an id are exactly the legal
ones. A message that is refused leaves the whole ledger as it is; one that is accepted changes
nothing but the conversation under its id, and both parties are told the same move. -/
theorem observe_exact (actions : List Action) (now : Nanos) (id : String) (p : Posting) :
    let l := replay actions
    ((l.observe now p.sender p.receiver id p.message).isOk ↔
      Legal l id (accepted .empty id actions) p) ∧
    (∀ breach, l.observe now p.sender p.receiver id p.message = .error breach →
      l.act (.observe now p.sender p.receiver id p.message) = l) ∧
    (∀ n l', l.observe now p.sender p.receiver id p.message = .ok (n, l') →
      l.act (.observe now p.sender p.receiver id p.message) = l' ∧ Settles l id p n l') := by
  intro l
  have threaded : l.Threaded id (accepted .empty id actions) := (threaded_empty id).run actions
  refine ⟨⟨?_, fun legal => legal.isOk threaded now⟩, ?_, ?_⟩
  · intro ok
    cases result : l.observe now p.sender p.receiver id p.message with
    | error breach =>
      rw [result] at ok
      cases ok
    | ok answer =>
      obtain ⟨n, l'⟩ := answer
      obtain ⟨accepts, -⟩ := observe_eq_ok result
      exact accepts.legal threaded
  · intro breach refused
    simp only [act, refused]
  · intro n l' granted
    obtain ⟨accepts, rfl⟩ := observe_eq_ok granted
    constructor
    · simp only [act, granted]
    · exact accepts.settles threaded.wellKept

end Ledger

end AgentBroker
