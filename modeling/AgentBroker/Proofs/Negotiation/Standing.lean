import AgentBroker.Proofs.Negotiation.Threading

/-!
# When a message is due

The thread of an id tells which message the ledger accepts next: a call where there is no thread
yet, and else an answer to the last message of a conversation that is still ongoing.
-/

namespace AgentBroker

def Move.isAnsweredBy : Move → Move → Bool
  | .call, .propose | .call, .decline | .propose, .accept | .propose, .decline => true
  | _, _ => false

theorem Move.isAnsweredBy_ne_call {move answer : Move} (due : move.isAnsweredBy answer) :
    answer ≠ .call := by
  rintro rfl
  cases move <;> cases due

theorem Stage.next?_called {answer : Move} (due : Move.call.isAnsweredBy answer) :
    ∃ stage, Stage.called.next? .responder answer = some stage := by
  cases answer with
  | propose => exact ⟨.proposed, rfl⟩
  | decline => exact ⟨.declined, rfl⟩
  | call | accept => cases due

theorem Stage.next?_proposed {answer : Move} (due : Move.propose.isAnsweredBy answer) :
    ∃ stage, Stage.proposed.next? .initiator answer = some stage := by
  cases answer with
  | accept => exact ⟨.accepted, rfl⟩
  | decline => exact ⟨.declined, rfl⟩
  | call | propose => cases due

namespace Ledger

variable {l : Ledger} {id : String} {thread : List Posting} {p : Posting}

/-- All that the thread of an id says about the ledger. -/
structure Threaded (l : Ledger) (id : String) (thread : List Posting) : Prop where
  wellKept : l.WellKept
  recorded : Recorded l id thread
  positive : ∀ p ∈ thread, p.message.msgId ≠ 0
  /-- Before its first message the responder has no number. -/
  fresh : ∀ n, l.get? id = some n → n.stage = .called → n.responderLast = 0

theorem threaded_empty (id : String) : Threaded .empty id [] where
  wellKept := wellKept_empty
  recorded := recorded_empty id
  positive := nofun
  fresh n h := by simp at h

theorem Accepts.positive {now : Nanos} {n : Negotiation} (h : l.Accepts now id p n) :
    p.message.msgId ≠ 0 := by
  cases h with
  | call _ _ _ _ number => exact number
  | next _ _ _ _ number =>
    exact UInt32.pos_iff_ne_zero.mp (UInt32.lt_of_le_of_lt UInt32.zero_le number)

theorem Accepts.fresh {now : Nanos} {n : Negotiation} (h : l.Accepts now id p n)
    (called : n.stage = .called) : n.responderLast = 0 := by
  cases h with
  | call => rfl
  | next _ _ _ move =>
    rw [Negotiation.record_stage] at called
    subst called
    rcases Stage.next?_eq_some move with ⟨-, -, -, differ⟩ | ⟨-, -, -, differ⟩ | ⟨-, -, -, differ⟩ |
      ⟨-, -, -, differ⟩ <;> cases differ

theorem Threaded.act (h : l.Threaded id thread) (a : Action) :
    (l.act a).Threaded id (thread ++ (l.posting? id a).toList) := by
  refine ⟨wellKept_act h.wellKept a, h.recorded.act h.wellKept a, ?_, ?_⟩
  · intro q mem
    rcases List.mem_append.mp mem with old | new
    · exact h.positive q old
    · rcases act_cases h.wellKept a id with ⟨now, p, n, posting, accepts, -⟩ | ⟨silent, -⟩ |
        ⟨silent, -⟩
      · rw [posting, Option.toList_some, List.mem_singleton] at new
        exact new ▸ accepts.positive
      · rw [silent] at new
        cases new
      · rw [silent] at new
        cases new
  · intro n ongoing called
    rcases act_cases h.wellKept a id with ⟨now, p, next, -, accepts, after⟩ | ⟨-, -, gone, -⟩ |
      ⟨-, -, same, -⟩
    · rw [after, get?_file, if_pos (accepts.id_eq h.wellKept).symm] at ongoing
      split at ongoing
      · cases ongoing
      · cases ongoing
        exact accepts.fresh called
    · rw [gone] at ongoing
      cases ongoing
    · rw [same] at ongoing
      exact h.fresh n ongoing called

theorem Threaded.run (h : l.Threaded id thread) (actions : List Action) :
    (Run.last Ledger.act l actions).Threaded id (thread ++ l.accepted id actions) := by
  induction actions generalizing l thread with
  | nil => rwa [accepted, Run.log, List.append_nil]
  | cons a rest ih =>
    have later := ih (h.act a)
    rwa [List.append_assoc] at later

def Concluded (thread : List Posting) : Prop :=
  ∃ p ∈ thread.getLast?, p.message.step.move = .accept ∨ p.message.step.move = .decline

/-- A conversation that has begun goes on until its last move. -/
def Live (l : Ledger) (id : String) (thread : List Posting) : Prop :=
  thread = [] ∨ Concluded thread ∨ ∃ n, l.get? id = some n

theorem Accepts.concludes {now : Nanos} {n : Negotiation} (h : l.Accepts now id p n)
    (done : n.stage.isTerminal) :
    p.message.step.move = .accept ∨ p.message.step.move = .decline := by
  cases h with
  | call => cases done
  | next _ _ _ move =>
    rw [Negotiation.record_stage] at done
    rcases Stage.next?_eq_some move with ⟨-, -, -, rfl⟩ | ⟨-, -, decline, -⟩ | ⟨-, -, accept, -⟩ |
      ⟨-, -, decline, -⟩
    · cases done
    · exact .inr decline
    · exact .inl accept
    · exact .inr decline

theorem Live.act (hl : l.WellKept) (live : l.Live id thread) {a : Action}
    (kept : ¬ l.Retires id a) : (l.act a).Live id (thread ++ (l.posting? id a).toList) := by
  rcases act_cases hl a id with ⟨now, p, n, posting, accepts, after⟩ | ⟨-, retires, -⟩ |
    ⟨silent, -, same, -⟩
  · have key := accepts.id_eq hl
    rw [posting, after]
    by_cases done : n.stage.isTerminal
    · exact .inr (.inl ⟨p, by simp, accepts.concludes done⟩)
    · refine .inr (.inr ⟨n, ?_⟩)
      rw [get?_file, if_pos key.symm, if_neg done]
  · exact absurd retires kept
  · rw [silent, Option.toList_none, List.append_nil, Live, same]
    exact live

theorem observe_isOk_call {now : Nanos} {sender receiver : String} {m : NegotiationMessage}
    (move : m.step.move = .call) (unused : l.isRetired id = false) (unknown : l.get? id = none)
    (target : m.target = 0) (number : m.msgId ≠ 0) :
    (l.observe now sender receiver id m).isOk := by
  have free : l.ongoing.contains id = false := by
    rw [Std.ExtTreeMap.contains_eq_isSome_getElem?, Option.isSome_eq_false_iff,
      Option.isNone_iff_eq_none]
    exact unknown
  have judged : l.judge now sender receiver id m =
      .ok (.start now sender receiver id m.msgId) := by
    simp only [judge, move, judgeCall, unused, free, target, number, ne_eq, not_true_eq_false,
      if_false, Bool.false_eq_true]
  rw [observe, judged]
  rfl

theorem observe_reply {now : Nanos} {sender receiver : String} {m : NegotiationMessage}
    {n : Negotiation} {side : Side} {stage : Stage} (ongoing : l.get? id = some n)
    (asks : m.step.move ≠ .call) (own : n.sideOf? sender = some side)
    (other : n.party side.other = receiver) (move : n.stage.next? side m.step.move = some stage)
    (number : n.last side < m.msgId) (target : m.target = n.last side.other) :
    l.observe now sender receiver id m =
      .ok (n.record now side m.msgId stage, l.file (n.record now side m.msgId stage)) := by
  have judged : l.judge now sender receiver id m = .ok (n.record now side m.msgId stage) := by
    rw [judge]
    split
    next call => exact absurd call asks
    · simp [ongoing, Negotiation.advance, own, other, move, target, UInt32.not_le.mpr number]
  rw [observe, judged]
  rfl

theorem observe_isOk_reply {now : Nanos} {sender receiver : String} {m : NegotiationMessage}
    {n : Negotiation} {side : Side} {stage : Stage} (ongoing : l.get? id = some n)
    (asks : m.step.move ≠ .call) (own : n.sideOf? sender = some side)
    (other : n.party side.other = receiver) (move : n.stage.next? side m.step.move = some stage)
    (number : n.last side < m.msgId) (target : m.target = n.last side.other) :
    (l.observe now sender receiver id m).isOk := by
  rw [observe_reply ongoing asks own other move number target]
  rfl

theorem Orderly.answered {q : Posting} {xs ys : List Posting}
    (orderly : Orderly (xs ++ p :: q :: ys)) :
    Answers p q ∧ p.message.step.move.isAnsweredBy q.message.step.move := by
  have due {moves : List Move} (rule : moves.IsChain fun a b => a.isAnsweredBy b)
      (front : (xs ++ p :: q :: ys).map (·.message.step.move) <+: moves) :
      p.message.step.move.isAnsweredBy q.message.step.move := by
    obtain ⟨rest, rfl⟩ := front
    have chain := rule.left_of_append
    rw [List.map_append, List.map_cons, List.map_cons] at chain
    exact (List.isChain_append_cons_cons.mp chain).2.1
  refine ⟨(List.isChain_append_cons_cons.mp orderly.replies).2.1, ?_⟩
  rcases orderly.moves with moves | moves | moves
  · exact due (by decide) moves
  · exact due (by decide) moves
  · exact due (by decide) moves

theorem Orderly.nodup_received (orderly : Orderly thread) (agent : String) :
    ((thread.filter (·.receiver = agent)).map (·.message.msgId)).Nodup := by
  have sameSender {x y : Posting} (hx : x ∈ thread) (hy : y ∈ thread)
      (same : x.receiver = y.receiver) : x.sender = y.sender := by
    obtain ⟨c, first⟩ := Option.isSome_iff_exists.mp (List.isSome_head?.mpr (List.ne_nil_of_mem hx))
    rcases orderly.parties c first x hx with ⟨sx, rx⟩ | ⟨sx, rx⟩ <;>
      rcases orderly.parties c first y hy with ⟨sy, ry⟩ | ⟨sy, ry⟩
    · rw [sx, sy]
    · rw [sx, sy, ← ry, ← rx, same]
    · rw [sx, sy, ← rx, ← ry, same]
    · rw [sx, sy]
  rw [List.Nodup, List.pairwise_map]
  refine (orderly.rising.sublist (List.filter_sublist)).imp_of_mem ?_
  intro x y mx my rising
  obtain ⟨mx, rx⟩ := List.mem_filter.mp mx
  obtain ⟨my, ry⟩ := List.mem_filter.mp my
  have same : x.receiver = y.receiver := by
    rw [of_decide_eq_true rx, of_decide_eq_true ry]
  exact UInt32.ne_of_lt (rising (sameSender mx my same))

theorem Threaded.ongoing {xs : List Posting} (h : l.Threaded id (xs ++ [p]))
    (live : l.Live id (xs ++ [p])) {move : Move} (due : p.message.step.move.isAnsweredBy move) :
    ∃ n, l.get? id = some n ∧ Tells (xs ++ [p]) n := by
  rcases live with empty | concluded | ⟨n, ongoing⟩
  · simp at empty
  · obtain ⟨q, last, final⟩ := concluded
    simp only [List.getLast?_append, List.getLast?_singleton, Option.some_or, Option.mem_def,
      Option.some.injEq] at last
    subst last
    rcases final with final | final <;> rw [final] at due <;> cases due
  · exact ⟨n, ongoing, h.recorded.ongoing n ongoing⟩

/-- The last message of an ongoing conversation is its call or the proposal behind it. -/
theorem Tells.last_cases {xs : List Posting} {n : Negotiation} (tells : Tells (xs ++ [p]) n) :
    xs = [] ∧ Tells [p] n ∨ ∃ c, xs = [c] ∧ Tells [c, p] n := by
  generalize thread : xs ++ [p] = thread at tells
  cases tells with
  | @called c _ opens stage =>
    obtain ⟨rfl, rfl⟩ : xs = [] ∧ p = c := by
      have split : xs ++ [p] = [] ++ [c] := thread
      simpa using List.append_inj' split rfl
    exact .inl ⟨rfl, .called opens stage⟩
  | @proposed c r _ opens answers move stage last =>
    obtain ⟨rfl, rfl⟩ : xs = [c] ∧ p = r := by
      have split : xs ++ [p] = [c] ++ [r] := thread
      simpa using List.append_inj' split rfl
    exact .inr ⟨c, rfl, .proposed opens answers move stage last⟩

theorem Tells.eq_of_receiver {xs : List Posting} {n : Negotiation} (tells : Tells (xs ++ [p]) n)
    {x : Posting} (mem : x ∈ xs ++ [p]) (same : x.receiver = p.receiver) : x = p := by
  rcases tells.last_cases with ⟨rfl, -⟩ | ⟨c, rfl, tells⟩
  · exact List.mem_singleton.mp mem
  · cases tells with
    | proposed opens answers =>
      rcases List.mem_cons.mp mem with rfl | mem
      · exact absurd (answers.sender.trans (same.trans answers.receiver)) answers.alternate
      · exact List.mem_singleton.mp mem

/-- What answers the last message of an ongoing conversation, with a number above those that its
sender has used, is accepted. -/
theorem Threaded.accepts_reply {xs : List Posting} (h : l.Threaded id (xs ++ [p]))
    (live : l.Live id (xs ++ [p])) (apart : p.sender ≠ p.receiver) {m : NegotiationMessage}
    (due : p.message.step.move.isAnsweredBy m.step.move) (target : m.target = p.message.msgId)
    (positive : m.msgId ≠ 0)
    (rising : ∀ q ∈ xs, q.sender = p.receiver → q.message.msgId < m.msgId) (now : Nanos) :
    (l.observe now p.receiver p.sender id m).isOk := by
  have asks : m.step.move ≠ .call := Move.isAnsweredBy_ne_call due
  obtain ⟨n, ongoing, tells⟩ := h.ongoing live due
  rcases tells.last_cases with ⟨rfl, tells⟩ | ⟨c, rfl, tells⟩
  · cases tells with
    | called opens stage =>
      rw [opens.move] at due
      obtain ⟨next, moves⟩ := Stage.next?_called due
      rw [← stage] at moves
      refine observe_isOk_reply ongoing asks ?_ ?_ moves ?_ (target.trans opens.last.symm)
      · rw [Negotiation.sideOf?, if_neg (opens.initiator ▸ apart.symm),
          if_pos opens.responder.symm]
      · exact opens.initiator
      · rw [Negotiation.last, h.fresh n ongoing stage]
        exact UInt32.pos_iff_ne_zero.mpr positive
  · cases tells with
    | proposed opens answers move stage last =>
      rw [move] at due
      obtain ⟨next, moves⟩ := Stage.next?_proposed due
      rw [← stage] at moves
      have initiator : p.receiver = n.initiator := answers.receiver.trans opens.initiator.symm
      refine observe_isOk_reply ongoing asks ?_ ?_ moves ?_ (target.trans last.symm)
      · rw [Negotiation.sideOf?, if_pos initiator]
      · exact opens.responder.trans answers.sender.symm
      · rw [Negotiation.last, opens.last]
        exact rising c List.mem_cons_self answers.receiver.symm

end Ledger

end AgentBroker
