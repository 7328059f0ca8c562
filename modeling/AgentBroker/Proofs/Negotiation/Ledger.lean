import AgentBroker.Negotiation.Ledger

/-!
# What the operations do to a ledger

For every operation: which negotiation it leaves under an id, and which ids are retired behind it.
A message is judged by one of two rules, one for calls and one for what follows them.
-/

namespace AgentBroker

namespace Negotiation

variable {n : Negotiation} {agent : String}

@[simp] theorem record_id (now : Nanos) (side : Side) (msgId : UInt32) (stage : Stage) :
    (n.record now side msgId stage).id = n.id := by
  cases side <;> rfl

@[simp] theorem record_initiator (now : Nanos) (side : Side) (msgId : UInt32) (stage : Stage) :
    (n.record now side msgId stage).initiator = n.initiator := by
  cases side <;> rfl

@[simp] theorem record_responder (now : Nanos) (side : Side) (msgId : UInt32) (stage : Stage) :
    (n.record now side msgId stage).responder = n.responder := by
  cases side <;> rfl

@[simp] theorem record_stage (now : Nanos) (side : Side) (msgId : UInt32) (stage : Stage) :
    (n.record now side msgId stage).stage = stage := by
  cases side <;> rfl

theorem sideOf?_eq_initiator (h : n.sideOf? agent = some .initiator) : agent = n.initiator := by
  unfold sideOf? at h
  split at h
  · assumption
  · split at h <;> cases h

theorem sideOf?_eq_responder (h : n.sideOf? agent = some .responder) :
    agent = n.responder ∧ agent ≠ n.initiator := by
  unfold sideOf? at h
  split at h
  · cases h
  · split at h
    · exact ⟨‹_›, ‹_›⟩
    · cases h

theorem involves_iff : n.involves agent ↔ n.initiator = agent ∨ n.responder = agent := by
  simp [involves]

theorem advance_eq_ok {now : Nanos} {sender receiver : String} {m : NegotiationMessage}
    {next : Negotiation} (h : n.advance now sender receiver m = .ok next) :
    ∃ side stage, n.sideOf? sender = some side ∧ n.party side.other = receiver ∧
      n.stage.next? side m.step.move = some stage ∧ n.last side < m.msgId ∧
      m.target = n.last side.other ∧ next = n.record now side m.msgId stage := by
  unfold advance at h
  split at h
  · cases h
  next side hside =>
    split at h
    · cases h
    next hparty =>
      split at h
      · cases h
      next stage hstage =>
        split at h
        · cases h
        next hrise =>
          split at h
          · cases h
          next htarget =>
            cases h
            exact ⟨side, stage, hside, Decidable.not_not.mp hparty, hstage,
              UInt32.not_le.mp hrise, Decidable.not_not.mp htarget, rfl⟩

theorem advance_eq_error {now : Nanos} {sender receiver : String} {m : NegotiationMessage}
    {breach : Breach} (h : n.advance now sender receiver m = .error breach) :
    breach.conversationId = n.id := by
  unfold advance at h
  split at h
  · cases h
    rfl
  · split at h
    · cases h
      rfl
    · split at h
      · cases h
        rfl
      · split at h
        · cases h
          rfl
        · split at h
          · cases h
            rfl
          · cases h

end Negotiation

theorem Stage.next?_eq_some {stage next : Stage} {side : Side} {move : Move}
    (h : stage.next? side move = some next) :
    (stage = called ∧ side = .responder ∧ move = .propose ∧ next = proposed) ∨
      (stage = called ∧ side = .responder ∧ move = .decline ∧ next = declined) ∨
      (stage = proposed ∧ side = .initiator ∧ move = .accept ∧ next = accepted) ∨
      (stage = proposed ∧ side = .initiator ∧ move = .decline ∧ next = declined) := by
  unfold Stage.next? at h
  split at h <;> simp_all

namespace Ledger

variable {l : Ledger} {id : String}

@[simp] theorem get?_empty : Ledger.empty.get? id = none := by
  simp [get?, Ledger.empty]

@[simp] theorem isRetired_empty : Ledger.empty.isRetired id = false := by
  simp [isRetired, Ledger.empty]

theorem get?_retire (other : String) :
    (l.retire other).get? id = if id = other then none else l.get? id := by
  by_cases h : id = other
  · simp [get?, retire, h]
  · simp [get?, retire, Std.ExtTreeMap.getElem?_erase, h, Ne.symm h]

theorem isRetired_retire (other : String) :
    (l.retire other).isRetired id ↔ id = other ∨ l.isRetired id := by
  have same : (compare other id == .eq) = true ↔ id = other := by
    simp only [beq_iff_eq, Std.LawfulEqCmp.compare_eq_iff_eq]
    exact eq_comm
  rw [← same]
  simp [isRetired, retire, Std.ExtTreeSet.contains_insert]

theorem get?_retireAll (ids : List String) :
    (l.retireAll ids).get? id = if id ∈ ids then none else l.get? id := by
  induction ids generalizing l with
  | nil => simp [retireAll]
  | cons other rest ih =>
    change ((l.retire other).retireAll rest).get? id = _
    rw [ih, get?_retire]
    by_cases h : id = other <;> by_cases hr : id ∈ rest <;> simp [h, hr]

theorem isRetired_retireAll (ids : List String) :
    (l.retireAll ids).isRetired id ↔ id ∈ ids ∨ l.isRetired id := by
  induction ids generalizing l with
  | nil => simp [retireAll]
  | cons other rest ih =>
    change ((l.retire other).retireAll rest).isRetired id ↔ _
    rw [ih, isRetired_retire, List.mem_cons, or_assoc, or_left_comm]

theorem mem_idsWhere (p : Negotiation → Bool) :
    id ∈ l.idsWhere p ↔ ∃ n, l.get? id = some n ∧ p n := by
  simp [idsWhere, get?]

theorem get?_retireWhere (p : Negotiation → Bool) :
    (l.retireAll (l.idsWhere p)).get? id = (l.get? id).filter fun n => !p n := by
  simp only [get?_retireAll, mem_idsWhere]
  cases h : l.get? id with
  | none => simp
  | some n => cases hp : p n <;> simp [hp, Option.filter_some]

theorem isRetired_retireWhere (p : Negotiation → Bool) :
    (l.retireAll (l.idsWhere p)).isRetired id ↔
      (∃ n, l.get? id = some n ∧ p n) ∨ l.isRetired id := by
  rw [isRetired_retireAll, mem_idsWhere]

theorem get?_file (n : Negotiation) :
    (l.file n).get? id =
      if id = n.id then if n.stage.isTerminal then none else some n else l.get? id := by
  unfold file
  split
  · exact get?_retire n.id
  · by_cases h : id = n.id
    · simp [get?, h]
    · simp [get?, Std.ExtTreeMap.getElem?_insert, h, Ne.symm h]

theorem isRetired_file (n : Negotiation) :
    (l.file n).isRetired id ↔ id = n.id ∧ n.stage.isTerminal ∨ l.isRetired id := by
  unfold file
  split
  next h => rw [isRetired_retire, h]; simp
  next h => simp [isRetired, h]

theorem ext_entries {l l' : Ledger} (ongoing : ∀ id, l.get? id = l'.get? id)
    (retired : ∀ id, l.isRetired id ↔ l'.isRetired id) : l = l' := by
  obtain ⟨entries, ids⟩ := l
  obtain ⟨entries', ids'⟩ := l'
  have same : entries = entries' := Std.ExtTreeMap.ext_getElem? fun id => ongoing id
  have same' : ids = ids' := Std.ExtTreeSet.ext_mem fun id => retired id
  rw [same, same']

/-- A negotiation that has just been filed leaves with its party, like those that were there before.
Its id is retired in any case. -/
theorem removeAgent_file {n : Negotiation} {agent : String} (own : n.involves agent) :
    ((l.file n).removeAgent agent).2 = (l.removeAgent agent).2.retire n.id := by
  have entry (k : Ledger) (id : String) :
      (k.removeAgent agent).2.get? id = (k.get? id).filter fun n => !n.involves agent :=
    get?_retireWhere fun n => n.involves agent
  have mark (k : Ledger) (id : String) :
      (k.removeAgent agent).2.isRetired id ↔
        (∃ n, k.get? id = some n ∧ n.involves agent) ∨ k.isRetired id :=
    isRetired_retireWhere fun n => n.involves agent
  refine ext_entries (fun id => ?_) fun id => ?_
  · rw [entry, get?_retire, get?_file, entry]
    split
    · cases n.stage.isTerminal <;> simp [Option.filter_some, own]
    · rfl
  · rw [mark, isRetired_retire, isRetired_file, get?_file, mark]
    by_cases same : id = n.id
    · cases terminal : n.stage.isTerminal <;> simp [same, own]
    · simp [same]

structure Posting where
  sender : String
  receiver : String
  message : NegotiationMessage

/-- A message is accepted under an id as a call that opens its conversation, or as the next move in
one that is ongoing. The last argument is the negotiation behind it. -/
inductive Accepts (l : Ledger) (now : Nanos) (id : String) (p : Posting) : Negotiation → Prop
  | call (move : p.message.step.move = .call) (unused : l.isRetired id = false)
      (unknown : l.get? id = none) (target : p.message.target = 0) (number : p.message.msgId ≠ 0) :
      Accepts l now id p (.start now p.sender p.receiver id p.message.msgId)
  | next {prior : Negotiation} {side : Side} {stage : Stage} (ongoing : l.get? id = some prior)
      (sender : prior.sideOf? p.sender = some side) (receiver : prior.party side.other = p.receiver)
      (move : prior.stage.next? side p.message.step.move = some stage)
      (number : prior.last side < p.message.msgId) (target : p.message.target = prior.last side.other) :
      Accepts l now id p (prior.record now side p.message.msgId stage)

theorem Accepts.parties {now : Nanos} {p : Posting} {n : Negotiation} (h : l.Accepts now id p n) :
    n.initiator = p.sender ∧ n.responder = p.receiver ∨
    n.initiator = p.receiver ∧ n.responder = p.sender := by
  cases h with
  | call => exact .inl ⟨rfl, rfl⟩
  | @next prior side stage ongoing sender receiver =>
    rw [Negotiation.record_initiator, Negotiation.record_responder]
    cases side with
    | initiator => exact .inl ⟨(Negotiation.sideOf?_eq_initiator sender).symm, receiver⟩
    | responder => exact .inr ⟨receiver, (Negotiation.sideOf?_eq_responder sender).1.symm⟩

theorem judgeCall_eq_ok {now : Nanos} {p : Posting} {n : Negotiation}
    (move : p.message.step.move = .call)
    (h : l.judgeCall now p.sender p.receiver id p.message = .ok n) : l.Accepts now id p n := by
  unfold judgeCall at h
  split at h
  · cases h
  next unused =>
    split at h
    · cases h
    next unknown =>
      split at h
      · cases h
      next target =>
        split at h
        · cases h
        next number =>
          cases h
          rw [Std.ExtTreeMap.contains_eq_isSome_getElem?] at unknown
          exact .call move (by simpa using unused) (by simpa [get?] using unknown)
            (Decidable.not_not.mp target) number

theorem observe_eq_ok {now : Nanos} {p : Posting} {n : Negotiation} {l' : Ledger}
    (h : l.observe now p.sender p.receiver id p.message = .ok (n, l')) :
    l.Accepts now id p n ∧ l' = l.file n := by
  unfold observe at h
  cases hj : l.judge now p.sender p.receiver id p.message with
  | error b => rw [hj] at h; cases h
  | ok next =>
    rw [hj] at h
    cases h
    refine ⟨?_, rfl⟩
    unfold judge at hj
    split at hj
    next move => exact judgeCall_eq_ok move hj
    next =>
      split at hj
      · cases hj
      next prior ongoing =>
        obtain ⟨side, stage, sender, receiver, move, number, target, rfl⟩ :=
          Negotiation.advance_eq_ok hj
        exact .next ongoing sender receiver move number target

theorem judgeCall_eq_error {now : Nanos} {sender receiver : String} {m : NegotiationMessage}
    {breach : Breach} (h : l.judgeCall now sender receiver id m = .error breach) :
    breach.conversationId = id := by
  unfold judgeCall at h
  split at h
  · cases h
    rfl
  · split at h
    · cases h
      rfl
    · split at h
      · cases h
        rfl
      · split at h
        · cases h
          rfl
        · cases h

end Ledger

end AgentBroker
