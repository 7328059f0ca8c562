import AgentBroker.Proofs.Negotiation.History
import Mathlib.Data.List.Chain
import Mathlib.Data.List.Induction

/-!
# The thread of a conversation

The messages that a ledger accepts under one id are a call, a reply to it, and an answer to a
proposal. Each goes back where the one before it came from and names its number; no agent repeats or
lowers its own numbers; and behind the last move, or a retirement of the id, there is nothing more.
-/

namespace AgentBroker.Ledger

/-- `q` answers `p`: it goes the other way and refers to the number of `p`. -/
structure Answers (p q : Posting) : Prop where
  sender : q.sender = p.receiver
  receiver : q.receiver = p.sender
  alternate : q.sender ≠ p.sender
  target : q.message.target = p.message.msgId

/-- The messages of one conversation, as the rules of negotiation want them. -/
structure Orderly (thread : List Posting) : Prop where
  moves : thread.map (·.message.step.move) <+: [.call, .decline] ∨
    thread.map (·.message.step.move) <+: [.call, .propose, .accept] ∨
    thread.map (·.message.step.move) <+: [.call, .propose, .decline]
  call : ∀ c ∈ thread.head?, c.message.target = 0 ∧ 1 ≤ c.message.msgId
  parties : ∀ c ∈ thread.head?, ∀ p ∈ thread,
    p.sender = c.sender ∧ p.receiver = c.receiver ∨ p.sender = c.receiver ∧ p.receiver = c.sender
  replies : thread.IsChain Answers
  rising : thread.Pairwise fun p q => p.sender = q.sender → p.message.msgId < q.message.msgId

/-- `c` is the call that opened `n`, and the initiator has sent nothing since. -/
structure Opens (c : Posting) (n : Negotiation) : Prop where
  move : c.message.step.move = .call
  target : c.message.target = 0
  number : 1 ≤ c.message.msgId
  initiator : n.initiator = c.sender
  responder : n.responder = c.receiver
  last : n.initiatorLast = c.message.msgId

/-- The messages behind an ongoing negotiation. -/
inductive Tells : List Posting → Negotiation → Prop
  | called {c : Posting} {n : Negotiation} (opens : Opens c n) (stage : n.stage = .called) :
      Tells [c] n
  | proposed {c p : Posting} {n : Negotiation} (opens : Opens c n) (answers : Answers c p)
      (move : p.message.step.move = .propose) (stage : n.stage = .proposed)
      (last : n.responderLast = p.message.msgId) : Tells [c, p] n

theorem orderly_nil : Orderly [] := by
  constructor <;> simp

theorem orderly_call {c : Posting} {n : Negotiation} (opens : Opens c n) : Orderly [c] := by
  constructor
  · simp [opens.move]
  · simp [opens.target, opens.number]
  · simp
  · simp
  · simp

theorem orderly_reply {c p : Posting} {n : Negotiation} (opens : Opens c n)
    (answers : Answers c p)
    (move : p.message.step.move = .propose ∨ p.message.step.move = .decline) : Orderly [c, p] := by
  constructor
  · rcases move with move | move <;> simp [opens.move, move]
  · simp [opens.target, opens.number]
  · simp [answers.sender, answers.receiver]
  · simp [answers]
  · simp [answers.alternate.symm]

theorem orderly_end {c p q : Posting} {n : Negotiation} (opens : Opens c n)
    (reply : Answers c p) (propose : p.message.step.move = .propose) (answer : Answers p q)
    (move : q.message.step.move = .accept ∨ q.message.step.move = .decline)
    (number : c.message.msgId < q.message.msgId) : Orderly [c, p, q] := by
  constructor
  · rcases move with move | move <;> simp [opens.move, propose, move]
  · simp [opens.target, opens.number]
  · simp [reply.sender, reply.receiver, answer.sender, answer.receiver]
  · simp [reply, answer]
  · simp [reply.alternate.symm, answer.alternate.symm, number]

theorem Tells.orderly {thread : List Posting} {n : Negotiation} (h : Tells thread n) :
    Orderly thread := by
  cases h with
  | called opens => exact orderly_call opens
  | proposed opens answers move => exact orderly_reply opens answers (.inl move)

theorem one_le_of_ne_zero {k : UInt32} (h : k ≠ 0) : 1 ≤ k := by
  have positive := UInt32.lt_iff_toNat_lt.mp (UInt32.pos_iff_ne_zero.mpr h)
  exact UInt32.le_iff_toNat_le.mpr positive

theorem tells_start {now : Nanos} {id : String} {p : Posting}
    (move : p.message.step.move = .call) (target : p.message.target = 0)
    (number : p.message.msgId ≠ 0) :
    Tells [p] (.start now p.sender p.receiver id p.message.msgId) :=
  .called ⟨move, target, one_le_of_ne_zero number, rfl, rfl, rfl⟩ rfl

variable {p : Posting} {prior : Negotiation}

theorem Opens.answers {c : Posting} (opens : Opens c prior)
    (sender : prior.sideOf? p.sender = some .responder) (receiver : prior.initiator = p.receiver)
    (target : p.message.target = prior.initiatorLast) : Answers c p where
  sender := (Negotiation.sideOf?_eq_responder sender).1.trans opens.responder
  receiver := receiver.symm.trans opens.initiator
  alternate := opens.initiator ▸ (Negotiation.sideOf?_eq_responder sender).2
  target := target.trans opens.last

theorem Opens.answers_reply {c r : Posting} (opens : Opens c prior) (reply : Answers c r)
    (last : prior.responderLast = r.message.msgId)
    (sender : prior.sideOf? p.sender = some .initiator) (receiver : prior.responder = p.receiver)
    (target : p.message.target = prior.responderLast) : Answers r p := by
  have initiator : p.sender = c.sender :=
    (Negotiation.sideOf?_eq_initiator sender).trans opens.initiator
  constructor
  · rw [initiator, reply.receiver]
  · rw [← receiver, opens.responder, reply.sender]
  · rw [initiator]
    exact reply.alternate.symm
  · rw [target, last]

/-- The next move goes on with the thread of its negotiation; if it is the last one, the thread is
complete. -/
theorem Tells.record {side : Side} {stage : Stage} {thread : List Posting}
    (tells : Tells thread prior) (now : Nanos)
    (sender : prior.sideOf? p.sender = some side) (receiver : prior.party side.other = p.receiver)
    (move : prior.stage.next? side p.message.step.move = some stage)
    (number : prior.last side < p.message.msgId)
    (target : p.message.target = prior.last side.other) :
    Orderly (thread ++ [p]) ∧
      (stage.isTerminal = false →
        Tells (thread ++ [p]) (prior.record now side p.message.msgId stage)) := by
  cases tells with
  | called opens called =>
    rw [called] at move
    rcases Stage.next?_eq_some move with ⟨-, rfl, propose, rfl⟩ | ⟨-, rfl, decline, rfl⟩ |
      ⟨differ, -⟩ | ⟨differ, -⟩
    · have answers := opens.answers sender receiver target
      refine ⟨orderly_reply opens answers (.inl propose), fun _ => ?_⟩
      exact .proposed ⟨opens.move, opens.target, opens.number, opens.initiator, opens.responder,
        opens.last⟩ answers propose rfl rfl
    · have answers := opens.answers sender receiver target
      exact ⟨orderly_reply opens answers (.inr decline), fun going => by cases going⟩
    · cases differ
    · cases differ
  | proposed opens reply propose proposed last =>
    rw [proposed] at move
    have rising (initiator : side = .initiator) : prior.initiatorLast < p.message.msgId := by
      rwa [initiator] at number
    rcases Stage.next?_eq_some move with ⟨differ, -⟩ | ⟨differ, -⟩ | ⟨-, rfl, accept, rfl⟩ |
      ⟨-, rfl, decline, rfl⟩
    · cases differ
    · cases differ
    · have answers := opens.answers_reply reply last sender receiver target
      exact ⟨orderly_end opens reply propose answers (.inl accept) (opens.last ▸ rising rfl),
        fun going => by cases going⟩
    · have answers := opens.answers_reply reply last sender receiver target
      exact ⟨orderly_end opens reply propose answers (.inr decline) (opens.last ▸ rising rfl),
        fun going => by cases going⟩

/-- What the messages accepted under an id so far say about the ledger. -/
structure Recorded (l : Ledger) (id : String) (thread : List Posting) : Prop where
  orderly : Orderly thread
  ongoing : ∀ n, l.get? id = some n → Tells thread n
  gone : l.get? id = none → thread = [] ∨ l.isRetired id

theorem recorded_empty (id : String) : Recorded .empty id [] where
  orderly := orderly_nil
  ongoing n h := by simp at h
  gone _ := .inl rfl

theorem Recorded.accepts {l : Ledger} {now : Nanos} {id : String} {n : Negotiation}
    {thread : List Posting} (recorded : Recorded l id thread) (h : l.Accepts now id p n) :
    Orderly (thread ++ [p]) ∧ (n.stage.isTerminal = false → Tells (thread ++ [p]) n) := by
  cases h with
  | call move unused unknown target number =>
    have empty : thread = [] := by
      rcases recorded.gone unknown with empty | retired
      · exact empty
      · rw [unused] at retired
        cases retired
    have tells : Tells [p] (.start now p.sender p.receiver id p.message.msgId) :=
      tells_start move target number
    rw [empty]
    exact ⟨tells.orderly, fun _ => tells⟩
  | next ongoing sender receiver move number target =>
    have further := (recorded.ongoing _ ongoing).record now sender receiver move number target
    rw [Negotiation.record_stage]
    exact further

theorem Recorded.act {l : Ledger} (hl : l.WellKept) {id : String} {thread : List Posting}
    (recorded : Recorded l id thread) (a : Action) :
    Recorded (l.act a) id (thread ++ (l.posting? id a).toList) := by
  rcases act_cases hl a id with ⟨now, p, n, posting, accepts, after⟩ | ⟨silent, -, gone, retired⟩ |
    ⟨silent, -, same, retired⟩
  · have key := accepts.id_eq hl
    obtain ⟨orderly, tells⟩ := recorded.accepts accepts
    rw [posting, after]
    refine ⟨orderly, ?_, ?_⟩
    · intro next h
      rw [get?_file, if_pos key.symm] at h
      split at h
      · cases h
      next going =>
        cases h
        exact tells (by simpa using going)
    · intro h
      rw [get?_file, if_pos key.symm] at h
      split at h
      next done => exact .inr ((isRetired_file n).mpr (.inl ⟨key.symm, done⟩))
      · cases h
  · rw [silent, Option.toList_none, List.append_nil]
    refine ⟨recorded.orderly, ?_, fun _ => .inr retired⟩
    intro n h
    rw [gone] at h
    cases h
  · rw [silent, Option.toList_none, List.append_nil]
    refine ⟨recorded.orderly, ?_, ?_⟩
    · rw [same]
      exact recorded.ongoing
    · rw [same, retired]
      exact recorded.gone

theorem recorded_replay (id : String) (actions : List Action) :
    Recorded (replay actions) id (accepted .empty id actions) := by
  induction actions using List.reverseRecOn with
  | nil => exact recorded_empty id
  | append_singleton before a ih =>
    have step := ih.act (wellKept_replay before) a
    rwa [replay, accepted, Run.last_concat, Run.log_concat]

/-- The messages accepted under an id, whatever happens to the ledger, are one orderly thread, and
it ends when the id is retired. -/
theorem accepted_orderly (actions : List Action) (id : String) :
    Orderly (accepted .empty id actions) ∧
      ∀ before a after, actions = before ++ a :: after → (replay before).Retires id a →
        accepted (replay (before ++ [a])) id after = [] := by
  refine ⟨(recorded_replay id actions).orderly, ?_⟩
  intro before a after split retires
  have wellKept := wellKept_replay before
  have retired : ((replay before).act a).isRetired id := by
    rcases act_cases wellKept a id with ⟨now, p, n, posting, -, -⟩ | ⟨-, -, -, retired⟩ |
      ⟨-, kept, -⟩
    · cases a with
      | observe => exact retires.elim
      | retire => cases posting
      | removeAgent => cases posting
      | expireIdle => cases posting
    · exact retired
    · exact absurd retires kept
  rw [replay, Run.last_concat]
  exact accepted_eq_nil (wellKept_act wellKept a) id retired after

end AgentBroker.Ledger
