import AgentBroker.Proofs.Map
import AgentBroker.Proofs.Negotiation.History
import Mathlib.Data.List.Induction

/-!
# Idle conversations

A conversation lives on for a span of time behind each message that the ledger accepts in it. The
ledger holds the time of the last one, so it expires exactly the conversations that have been silent
for too long, and a message that is refused does not keep a conversation alive.
-/

namespace AgentBroker.Ledger

def Action.time? : Action → Option Nanos
  | .observe now .. | .expireIdle now _ => some now
  | .retire _ | .removeAgent _ => none

/-- When an action brings a message under an id, if the ledger accepts it. -/
def acceptedAt? (l : Ledger) (id : String) (a : Action) : Option Nanos :=
  (l.posting? id a).bind fun _ => a.time?

/-- When the last of the messages under an id came that have been accepted in the course of a
run. -/
def lastAccepted? (id : String) (actions : List Action) : Option Nanos :=
  (Run.log act (fun l a => (l.acceptedAt? id a).toList) .empty actions).getLast?

def Refuses (l : Ledger) : Action → Prop
  | .observe now sender receiver id m => (l.observe now sender receiver id m).isOk = false
  | _ => False

variable {l : Ledger} {id : String} {n : Negotiation}

theorem Accepts.lastActivity {now : Nanos} {p : Posting} (h : l.Accepts now id p n) :
    n.lastActivity = now := by
  cases h with
  | call => rfl
  | @next prior side => cases side <;> rfl

theorem accepts_of_posting? (hl : l.WellKept) {a : Action} {p : Posting}
    (posting : l.posting? id a = some p) :
    ∃ now n, a.time? = some now ∧ l.Accepts now id p n ∧ l.act a = l.file n := by
  cases a with
  | observe now sender receiver other m =>
    rcases observe_cases hl now sender receiver other id m with ⟨n, same, accepts, after⟩ |
      ⟨silent, -⟩
    · obtain rfl : p = _ := Option.some.inj (posting.symm.trans same)
      exact ⟨now, n, rfl, accepts, after⟩
    · rw [silent] at posting
      cases posting
  | retire other => cases posting
  | removeAgent agent => cases posting
  | expireIdle now maxIdle => cases posting

theorem lastAccepted?_concat (actions : List Action) (a : Action) :
    lastAccepted? id (actions ++ [a]) =
      ((replay actions).acceptedAt? id a).or (lastAccepted? id actions) := by
  rw [lastAccepted?, Run.log_concat, List.getLast?_append, ← lastAccepted?, ← replay]
  cases (replay actions).acceptedAt? id a <;> rfl

theorem lastAccepted?_replay (actions : List Action) (ongoing : (replay actions).get? id = some n) :
    lastAccepted? id actions = some n.lastActivity := by
  induction actions using List.reverseRecOn with
  | nil =>
    have unopened : (replay []).get? id = none := get?_empty
    cases unopened.symm.trans ongoing
  | append_singleton before a ih =>
    have wellKept := wellKept_replay before
    rw [replay, Run.last_concat, ← replay] at ongoing
    rw [lastAccepted?_concat]
    rcases act_cases wellKept a id with ⟨-, p, -, posting, -⟩ | ⟨-, -, gone, -⟩ |
      ⟨silent, -, same, -⟩
    · obtain ⟨now, next, time, accepts, after⟩ := accepts_of_posting? wellKept posting
      rw [after, get?_file, if_pos (accepts.id_eq wellKept).symm] at ongoing
      split at ongoing
      · cases ongoing
      · cases ongoing
        rw [acceptedAt?, posting, accepts.lastActivity]
        simp [time]
    · rw [gone] at ongoing
      cases ongoing
    · rw [acceptedAt?, silent]
      exact ih (same.symm.trans ongoing)

theorem act_of_refuses {a : Action} (refuses : l.Refuses a) : l.act a = l := by
  cases a with
  | observe now sender receiver other m =>
    cases result : l.observe now sender receiver other m with
    | error breach => simp only [act, result]
    | ok answer =>
      rw [Refuses, result] at refuses
      cases refuses
  | retire other => exact refuses.elim
  | removeAgent agent => exact refuses.elim
  | expireIdle now maxIdle => exact refuses.elim

/-- A run without a message that is refused in it ends in the same ledger. -/
theorem replay_without (before after : List Action) {a : Action}
    (refuses : (replay before).Refuses a) :
    replay (before ++ after) = replay (before ++ a :: after) := by
  rw [replay, replay, Run.last_append, Run.last_append, Run.last_cons, ← replay,
    act_of_refuses refuses]

theorem nodup_idsWhere (p : Negotiation → Bool) : (l.idsWhere p).Nodup := by
  have rising := Map.pairwise_keys_filter l.ongoing fun pair => p pair.2
  exact rising.imp String.ne_of_lt

theorem mem_expireIdle {now maxIdle : Nanos} :
    id ∈ (l.expireIdle now maxIdle).1 ↔
      ∃ n, l.get? id = some n ∧ n.lastActivity + maxIdle < now := by
  rw [expireIdle, mem_idsWhere]
  simp only [decide_eq_true_eq, Nat.lt_sub_iff_add_lt']

theorem retireWhere_idempotent (p : Negotiation → Bool) :
    (l.retireAll (l.idsWhere p)).idsWhere p = [] := by
  rw [List.eq_nil_iff_forall_not_mem]
  intro id mem
  obtain ⟨n, ongoing, idle⟩ := (mem_idsWhere p).mp mem
  rw [get?_retireWhere, Option.filter_eq_some_iff, idle] at ongoing
  cases ongoing.2

/-- Expiry retires exactly the ongoing conversations whose last accepted message came too long ago,
names each of them once, and leaves all others and all retired ids alone. Their ids never take a
message again, and behind it nothing is left to expire. A message that has been refused makes no
difference to any of this. The times of a run may stand in any order, so also in that of a clock
that never goes back. -/
theorem expiry_exact (actions : List Action) (now maxIdle : Nanos) :
    let l := replay actions
    let ids := (l.expireIdle now maxIdle).1
    let l' := (l.expireIdle now maxIdle).2
    ids.Nodup ∧
    (∀ id, id ∈ ids ↔
      (l.get? id).isSome ∧ ∃ t, lastAccepted? id actions = some t ∧ t + maxIdle < now) ∧
    (∀ id ∈ ids, l'.get? id = none ∧ l'.isRetired id ∧ ∀ later, l'.accepted id later = []) ∧
    (∀ id, id ∉ ids → l'.get? id = l.get? id ∧ l'.isRetired id = l.isRetired id) ∧
    (∀ id, l.isRetired id → l'.isRetired id) ∧
    l'.expireIdle now maxIdle = ([], l') ∧
    ∀ before a after, actions = before ++ a :: after → (replay before).Refuses a →
      replay (before ++ after) = l := by
  intro l ids l'
  have wellKept : l'.WellKept := wellKept_act (wellKept_replay actions) (.expireIdle now maxIdle)
  have gone (id : String) (mem : id ∈ ids) : l'.get? id = none ∧ l'.isRetired id :=
    ⟨(get?_retireAll ids).trans (if_pos mem), (isRetired_retireAll ids).mpr (.inl mem)⟩
  have once : ids.Nodup := nodup_idsWhere fun n => maxIdle < now - n.lastActivity
  refine ⟨once, ?_, ?_, ?_, ?_, ?_, ?_⟩
  · intro id
    rw [mem_expireIdle]
    constructor
    · rintro ⟨n, ongoing, idle⟩
      refine ⟨by rw [ongoing]; rfl, n.lastActivity, lastAccepted?_replay actions ongoing, idle⟩
    · rintro ⟨known, t, last, idle⟩
      obtain ⟨n, ongoing⟩ := Option.isSome_iff_exists.mp known
      rw [lastAccepted?_replay actions ongoing] at last
      cases last
      exact ⟨n, ongoing, idle⟩
  · intro id mem
    obtain ⟨unopened, retired⟩ := gone id mem
    exact ⟨unopened, retired, accepted_eq_nil wellKept id retired⟩
  · intro id spared
    refine ⟨(get?_retireAll ids).trans (if_neg spared), Bool.eq_iff_iff.mpr ?_⟩
    exact (isRetired_retireAll ids).trans (or_iff_right spared)
  · intro id retired
    exact (isRetired_retireAll ids).mpr (.inr retired)
  · have none : l'.idsWhere (fun n => maxIdle < now - n.lastActivity) = [] :=
      retireWhere_idempotent _
    rw [expireIdle, none]
    rfl
  · rintro before a after rfl refuses
    exact replay_without before after refuses

end AgentBroker.Ledger
