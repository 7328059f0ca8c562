import AgentBroker.Proofs.Negotiation.Bookkeeping
import AgentBroker.Proofs.Negotiation.Standing
import Mathlib.Algebra.Group.Nat.Defs
import Mathlib.Data.List.Perm.Subperm

/-!
# Messages in turn

The diary of an agent and the thread of a conversation fit together when all that the thread has
from the agent has been said, and all that the agent has heard stands in the thread. Then the agent
knows enough to answer what it has heard: its answer is accepted.
-/

namespace AgentBroker.DialogueBook

open Ledger

variable {l : Ledger} {id agent peer : String} {thread : List Posting} {diary : List Entry}
  {m : NegotiationMessage}

/-- The diary of an agent fits the thread of a conversation. -/
structure Fits (agent : String) (diary : List Entry) (thread : List Posting) : Prop where
  numbered : Numbered diary
  fewer : (said diary).length + 1 < 2 ^ 32
  said : ∀ q ∈ thread, q.sender = agent → q ∈ said diary
  heard : (heard diary).Subperm (thread.filter (·.receiver = agent))

theorem Next.toNat (next : Next diary m) (fewer : (said diary).length + 1 < 2 ^ 32) :
    m.msgId.toNat = (said diary).length + 1 := by
  rw [next.number, UInt32.toNat_ofNat_of_lt' fewer]

theorem Next.positive (next : Next diary m) (fewer : (said diary).length + 1 < 2 ^ 32) :
    m.msgId ≠ 0 := by
  intro zero
  have number := next.toNat fewer
  rw [zero] at number
  exact absurd number.symm (Nat.succ_ne_zero _)

theorem Fits.rising (fits : Fits agent diary thread) (next : Next diary m) {q : Posting}
    (mem : q ∈ thread) (own : q.sender = agent) : q.message.msgId < m.msgId := by
  obtain ⟨k, found⟩ := List.getElem?_of_mem (fits.said q mem own)
  have below := (List.getElem?_eq_some_iff.mp found).1
  have fewer := fits.fewer
  have small : k + 1 < 2 ^ 32 := by omega
  rw [UInt32.lt_iff_toNat_lt, next.toNat fewer, fits.numbered.numbers k q found,
    UInt32.toNat_ofNat_of_lt' small]
  omega

theorem Fits.nodup (fits : Fits agent diary thread) (orderly : Orderly thread) :
    ((DialogueBook.heard diary).map (·.message.msgId)).Nodup := by
  obtain ⟨some, same, fewer⟩ := fits.heard
  exact (same.map _).nodup_iff.mp ((orderly.nodup_received agent).sublist (fewer.map _))

/-- What an agent has still to answer is the last message of its thread. -/
theorem Fits.not_answered {p q : Posting} {xs ys : List Posting} {front back : List Entry}
    (fits : Fits agent diary (xs ++ p :: q :: ys)) (orderly : Orderly (xs ++ p :: q :: ys))
    (positive : p.message.msgId ≠ 0) (receiver : p.receiver = agent)
    (hears : diary = front ++ .heard p :: back)
    (unanswered : ∀ q, .said q ∈ back → q.receiver = p.sender →
      ¬ p.message.step.move.isAnsweredBy q.message.step.move) : False := by
  obtain ⟨answers, due⟩ := orderly.answered
  have own : .said q ∈ diary :=
    mem_said.mp (fits.said q (by simp) (answers.sender.trans receiver))
  rw [hears, List.mem_append, List.mem_cons] at own
  rcases own with early | same | late
  · -- It refers to `p`, so the agent had heard a message with this number before it heard `p`.
    obtain ⟨older, newer, rfl⟩ := List.append_of_mem early
    have target := fits.numbered.targets older q (newer ++ .heard p :: back)
      (by rw [hears, List.append_assoc, List.cons_append])
    rw [answers.target, lastHeard] at target
    cases last : (DialogueBook.heard older).getLast? with
    | none =>
      rw [last] at target
      exact positive target
    | some x =>
      rw [last] at target
      have nodup := fits.nodup orderly
      rw [hears, List.append_assoc, heard_append, List.map_append] at nodup
      have earlier : x.message.msgId ∈ (DialogueBook.heard older).map (·.message.msgId) :=
        List.mem_map_of_mem (List.mem_of_getLast? last)
      have later : p ∈ DialogueBook.heard (.said q :: newer ++ .heard p :: back) :=
        mem_heard.mpr (by simp)
      exact (List.nodup_append.mp nodup).2.2 _ earlier _ (List.mem_map_of_mem later) target.symm
  · cases same
  · exact unanswered q late answers.receiver due

theorem Fits.accepts_reply {p : Posting} {front back : List Entry} (fits : Fits agent diary thread)
    (threaded : l.Threaded id thread) (live : l.Live id thread) (next : Next diary m)
    (apart : p.sender ≠ agent) (receiver : p.receiver = agent)
    (hears : diary = front ++ .heard p :: back)
    (due : p.message.step.move.isAnsweredBy m.step.move)
    (unanswered : ∀ q, .said q ∈ back → q.receiver = p.sender →
      ¬ p.message.step.move.isAnsweredBy q.message.step.move) (now : Nanos) :
    (l.observe now agent p.sender id m).isOk := by
  have came : p ∈ DialogueBook.heard diary := mem_heard.mpr (by simp [hears])
  have settled : p ∈ thread := (List.mem_filter.mp (fits.heard.subset came)).1
  obtain ⟨xs, ys, rfl⟩ := List.append_of_mem settled
  cases ys with
  | cons q ys =>
    exact (fits.not_answered threaded.recorded.orderly (threaded.positive p settled) receiver hears
      unanswered).elim
  | nil =>
    obtain ⟨n, -, tells⟩ := threaded.ongoing live due
    have only (x : Posting) (mem : x ∈ DialogueBook.heard diary) : x = p := by
      obtain ⟨mem, goes⟩ := List.mem_filter.mp (fits.heard.subset mem)
      exact tells.eq_of_receiver mem ((of_decide_eq_true goes).trans receiver.symm)
    have target : m.target = p.message.msgId := by
      rw [next.target, lastHeard]
      cases last : (DialogueBook.heard diary).getLast? with
      | none =>
        rw [List.getLast?_eq_none_iff.mp last] at came
        cases came
      | some x =>
        rw [only x (List.mem_of_getLast? last)]
        rfl
    have rising (q : Posting) (mem : q ∈ xs) (own : q.sender = p.receiver) :
        q.message.msgId < m.msgId := fits.rising next (by simp [mem]) (own.trans receiver)
    have accepted := threaded.accepts_reply live (receiver ▸ apart) due target
      (next.positive fits.fewer) rising now
    rwa [receiver] at accepted

theorem Fits.accepts_call (fits : Fits agent diary thread) (threaded : l.Threaded id thread)
    (next : Next diary m) (calls : m.step.move = .call) (unopened : l.get? id = none)
    (unretired : l.isRetired id = false) (receiver : String) (now : Nanos) :
    (l.observe now agent receiver id m).isOk := by
  have unused : thread = [] := by
    rcases threaded.recorded.gone unopened with empty | retired
    · exact empty
    · rw [unretired] at retired
      cases retired
  subst unused
  have target : m.target = 0 := by
    rw [next.target, lastHeard, List.subperm_nil.mp fits.heard]
    rfl
  exact observe_isOk_call calls unretired unopened target (next.positive fits.fewer)

end AgentBroker.DialogueBook
