import AgentBroker.Proofs.Negotiation.Ledger
import AgentBroker.Proofs.Run

/-!
# Histories of a ledger

Messages come, ids are retired, agents leave and idle negotiations expire, in any order. For one id
an action does one of three things: it brings an accepted message, it retires the id, or it leaves
the id as it was.
-/

namespace AgentBroker.Ledger

inductive Action where
  | observe (now : Nanos) (sender receiver id : String) (m : NegotiationMessage)
  | retire (id : String)
  | removeAgent (agent : String)
  | expireIdle (now maxIdle : Nanos)

def act (l : Ledger) : Action → Ledger
  | .observe now sender receiver id m =>
    match l.observe now sender receiver id m with
    | .ok (_, next) => next
    | .error _ => l
  | .retire id => l.retire id
  | .removeAgent agent => (l.removeAgent agent).2
  | .expireIdle now maxIdle => (l.expireIdle now maxIdle).2

/-- The message that an action brings under an id, if the ledger accepts it. -/
def posting? (l : Ledger) (id : String) : Action → Option Posting
  | .observe now sender receiver other m =>
    if other = id ∧ (l.observe now sender receiver other m).isOk then some ⟨sender, receiver, m⟩
    else none
  | _ => none

/-- The action retires an id on behalf of nobody's message: it names the id, or an agent that takes
part in its conversation, or the conversation has been idle for too long. -/
def Retires (l : Ledger) (id : String) : Action → Prop
  | .observe .. => False
  | .retire other => other = id
  | .removeAgent agent => ∃ n, l.get? id = some n ∧ n.involves agent
  | .expireIdle now maxIdle => ∃ n, l.get? id = some n ∧ maxIdle < now - n.lastActivity

def replay (actions : List Action) : Ledger := Run.last act .empty actions

/-- The messages accepted under an id in the course of a run, oldest first. -/
def accepted (l : Ledger) (id : String) (actions : List Action) : List Posting :=
  Run.log act (fun l a => (l.posting? id a).toList) l actions

/-- Every negotiation stands under its own id, and no id is both ongoing and retired. -/
structure WellKept (l : Ledger) : Prop where
  keyed : ∀ id n, l.get? id = some n → n.id = id
  apart : ∀ id n, l.get? id = some n → l.isRetired id = false

variable {l : Ledger}

theorem wellKept_empty : WellKept .empty where
  keyed id n h := by simp at h
  apart id n h := by simp at h

theorem Accepts.id_eq {now : Nanos} {id : String} {p : Posting} {n : Negotiation}
    (hl : l.WellKept) (h : l.Accepts now id p n) : n.id = id := by
  cases h with
  | call => rfl
  | next ongoing => rw [Negotiation.record_id, hl.keyed id _ ongoing]

theorem Accepts.not_retired {now : Nanos} {id : String} {p : Posting} {n : Negotiation}
    (hl : l.WellKept) (h : l.Accepts now id p n) : l.isRetired id = false := by
  cases h with
  | call _ unused => exact unused
  | next ongoing => exact hl.apart id _ ongoing

theorem observe_eq_error (hl : l.WellKept) {now : Nanos} {sender receiver id : String}
    {m : NegotiationMessage} {breach : Breach}
    (h : l.observe now sender receiver id m = .error breach) : breach.conversationId = id := by
  cases judged : l.judge now sender receiver id m with
  | ok n =>
    rw [observe, judged] at h
    cases h
  | error found =>
    rw [observe, judged] at h
    cases h
    unfold judge at judged
    split at judged
    · exact judgeCall_eq_error judged
    · split at judged
      · cases judged
        rfl
      next n ongoing => rw [Negotiation.advance_eq_error judged, hl.keyed id n ongoing]

theorem retireWhere_cases (p : Negotiation → Bool) (id : String) :
    (∃ n, l.get? id = some n ∧ p n) ∧ (l.retireAll (l.idsWhere p)).get? id = none ∧
        (l.retireAll (l.idsWhere p)).isRetired id ∨
      (¬∃ n, l.get? id = some n ∧ p n) ∧
        (l.retireAll (l.idsWhere p)).get? id = l.get? id ∧
        ((l.retireAll (l.idsWhere p)).isRetired id ↔ l.isRetired id) := by
  by_cases h : ∃ n, l.get? id = some n ∧ p n
  · refine .inl ⟨h, ?_, (isRetired_retireWhere p).mpr (.inl h)⟩
    obtain ⟨n, hn, hp⟩ := h
    rw [get?_retireWhere, hn]
    simp [Option.filter_some, hp]
  · refine .inr ⟨h, ?_, ?_⟩
    · rw [get?_retireAll, if_neg (mt (mem_idsWhere p).mp h)]
    · rw [isRetired_retireWhere, or_iff_right h]

theorem observe_cases (hl : l.WellKept) (now : Nanos) (sender receiver other id : String)
    (m : NegotiationMessage) :
    (∃ n, l.posting? id (.observe now sender receiver other m) = some ⟨sender, receiver, m⟩ ∧
        l.Accepts now id ⟨sender, receiver, m⟩ n ∧
        l.act (.observe now sender receiver other m) = l.file n) ∨
      l.posting? id (.observe now sender receiver other m) = none ∧
        (l.act (.observe now sender receiver other m)).get? id = l.get? id ∧
        ((l.act (.observe now sender receiver other m)).isRetired id ↔ l.isRetired id) := by
  cases h : l.observe now sender receiver other m with
  | error b => exact .inr (by simp [posting?, act, h, Except.isOk, Except.toBool])
  | ok result =>
    obtain ⟨n, next⟩ := result
    obtain ⟨accepts, rfl⟩ := observe_eq_ok (p := ⟨sender, receiver, m⟩) h
    by_cases same : other = id
    · subst same
      exact .inl ⟨n, by simp [posting?, h, Except.isOk, Except.toBool], accepts, by simp [act, h]⟩
    · have away : id ≠ n.id := by rw [accepts.id_eq hl]; exact Ne.symm same
      refine .inr ⟨by simp [posting?, same], ?_, ?_⟩
      · simp [act, h, get?_file, away]
      · simp [act, h, isRetired_file, away]

/-- What an action does to one id. -/
theorem act_cases (hl : l.WellKept) (a : Action) (id : String) :
    (∃ now p n, l.posting? id a = some p ∧ l.Accepts now id p n ∧ l.act a = l.file n) ∨
      (l.posting? id a = none ∧ l.Retires id a ∧ (l.act a).get? id = none ∧
        (l.act a).isRetired id) ∨
      (l.posting? id a = none ∧ ¬l.Retires id a ∧ (l.act a).get? id = l.get? id ∧
        ((l.act a).isRetired id ↔ l.isRetired id)) := by
  cases a with
  | observe now sender receiver other m =>
    rcases observe_cases hl now sender receiver other id m with ⟨n, accepted⟩ | untouched
    · exact .inl ⟨now, _, n, accepted⟩
    · exact .inr (.inr ⟨untouched.1, fun h => h, untouched.2⟩)
  | retire other =>
    by_cases same : other = id
    · exact .inr (.inl ⟨rfl, same, by simp [act, get?_retire, same],
        by simp [act, isRetired_retire, same]⟩)
    · exact .inr (.inr ⟨rfl, same, by simp [act, get?_retire, Ne.symm same],
        by simp [act, isRetired_retire, Ne.symm same]⟩)
  | removeAgent agent =>
    rcases retireWhere_cases (l := l) (fun n => n.involves agent) id with gone | kept
    · exact .inr (.inl ⟨rfl, gone⟩)
    · exact .inr (.inr ⟨rfl, kept⟩)
  | expireIdle now maxIdle =>
    have cases := retireWhere_cases (l := l) (fun n => maxIdle < now - n.lastActivity) id
    simp only [decide_eq_true_eq] at cases
    rcases cases with gone | kept
    · exact .inr (.inl ⟨rfl, gone⟩)
    · exact .inr (.inr ⟨rfl, kept⟩)

theorem wellKept_act (hl : l.WellKept) (a : Action) : (l.act a).WellKept := by
  have kept (id : String) (n : Negotiation) (h : (l.act a).get? id = some n) :
      n.id = id ∧ (l.act a).isRetired id = false := by
    rcases act_cases hl a id with ⟨now, p, next, -, accepts, after⟩ | ⟨-, -, gone, -⟩ |
      ⟨-, -, same, retired⟩
    · have key := accepts.id_eq hl
      rw [after, get?_file, if_pos key.symm] at h
      split at h
      · cases h
      next going =>
        cases h
        refine ⟨key, ?_⟩
        rw [after, Bool.eq_false_iff, Ne, isRetired_file]
        simp [going, accepts.not_retired hl]
    · rw [gone] at h
      cases h
    · rw [same] at h
      refine ⟨hl.keyed id n h, ?_⟩
      rw [Bool.eq_false_iff, Ne, retired, hl.apart id n h]
      exact Bool.false_ne_true
  exact ⟨fun id n h => (kept id n h).1, fun id n h => (kept id n h).2⟩

theorem wellKept_replay (actions : List Action) : (replay actions).WellKept :=
  Run.last_induction (P := WellKept) (fun _ a hl => wellKept_act hl a) .empty wellKept_empty actions

theorem retired_act (hl : l.WellKept) {id : String} (retired : l.isRetired id) (a : Action) :
    l.posting? id a = none ∧ (l.act a).isRetired id := by
  rcases act_cases hl a id with ⟨now, p, next, -, accepts, -⟩ | ⟨silent, -, -, gone⟩ |
    ⟨silent, -, -, same⟩
  · rw [accepts.not_retired hl] at retired
    cases retired
  · exact ⟨silent, gone⟩
  · exact ⟨silent, same.mpr retired⟩

theorem retired_run (hl : l.WellKept) {id : String} (retired : l.isRetired id)
    (actions : List Action) :
    (Run.last act l actions).WellKept ∧ (Run.last act l actions).isRetired id :=
  Run.last_induction (P := fun l => l.WellKept ∧ l.isRetired id)
    (fun _ a h => ⟨wellKept_act h.1 a, (retired_act h.1 h.2 a).2⟩) l ⟨hl, retired⟩ actions

theorem accepted_eq_nil (hl : l.WellKept) (id : String) (retired : l.isRetired id)
    (actions : List Action) : l.accepted id actions = [] := by
  induction actions generalizing l with
  | nil => rfl
  | cons a rest ih =>
    obtain ⟨silent, still⟩ := retired_act hl retired a
    rw [accepted, Run.log, silent]
    exact ih (wellKept_act hl a) still

end AgentBroker.Ledger
