import AgentBroker.Proofs.Negotiation.History

/-!
# Conversations do not interfere

What a ledger answers under one id is settled by the calls that name this id, by the agents that
leave and by the time that passes. Messages and retirements under other ids make no difference to
it, whatever agents take part in both conversations.
-/

namespace AgentBroker.Ledger

/-- The action names the id, or it is about the conversations under all ids. -/
def Action.bearsOn (id : String) : Action → Bool
  | .observe _ _ _ other _ | .retire other => other == id
  | .removeAgent _ | .expireIdle .. => true

inductive Answer where
  | judged (result : Except Breach Negotiation)
  | retired (n : Option Negotiation)
  /-- Whether the conversation went with an agent that left. -/
  | left (gone : Bool)
  /-- Whether the conversation is named among those that were idle for too long. -/
  | expired (listed : Bool)

def answer? (l : Ledger) (id : String) : Action → Option Answer
  | .observe now sender receiver other m =>
    if other = id then some (.judged ((l.observe now sender receiver other m).map (·.1))) else none
  | .retire other => if other = id then some (.retired (l.get? id)) else none
  | .removeAgent agent =>
    some (.left ((l.get? id).isSome && ((l.removeAgent agent).2.get? id).isNone))
  | .expireIdle now maxIdle => some (.expired ((l.expireIdle now maxIdle).1.contains id))

/-- All that the actions of a run tell about one conversation, each answer with its action. -/
def answers (l : Ledger) (id : String) (actions : List Action) : List (Action × Answer) :=
  Run.log act (fun l a => ((l.answer? id a).map (a, ·)).toList) l actions

/-- Two ledgers that cannot be told apart under one id. -/
structure SameAt (id : String) (l l' : Ledger) : Prop where
  get? : l'.get? id = l.get? id
  isRetired : l'.isRetired id = l.isRetired id

variable {l l' : Ledger} {id : String}

namespace SameAt

theorem refl (id : String) (l : Ledger) : SameAt id l l := ⟨rfl, rfl⟩

theorem symm (h : SameAt id l l') : SameAt id l' l := ⟨h.get?.symm, h.isRetired.symm⟩

theorem trans {l'' : Ledger} (h : SameAt id l l') (h' : SameAt id l' l'') : SameAt id l l'' :=
  ⟨h'.get?.trans h.get?, h'.isRetired.trans h.isRetired⟩

theorem judge (h : SameAt id l l') (now : Nanos) (sender receiver : String)
    (m : NegotiationMessage) :
    l'.judge now sender receiver id m = l.judge now sender receiver id m := by
  have known : l'.ongoing.contains id = l.ongoing.contains id := by
    rw [Std.ExtTreeMap.contains_eq_isSome_getElem?, Std.ExtTreeMap.contains_eq_isSome_getElem?]
    exact congrArg Option.isSome h.get?
  simp only [Ledger.judge, judgeCall, h.get?, h.isRetired, known]

theorem file (h : SameAt id l l') (n : Negotiation) : SameAt id (l.file n) (l'.file n) where
  get? := by rw [get?_file, get?_file, h.get?]
  isRetired := by rw [Bool.eq_iff_iff, isRetired_file, isRetired_file, h.isRetired]

theorem retire (h : SameAt id l l') (other : String) :
    SameAt id (l.retire other) (l'.retire other) where
  get? := by rw [get?_retire, get?_retire, h.get?]
  isRetired := by rw [Bool.eq_iff_iff, isRetired_retire, isRetired_retire, h.isRetired]

theorem retireWhere (h : SameAt id l l') (p : Negotiation → Bool) :
    SameAt id (l.retireAll (l.idsWhere p)) (l'.retireAll (l'.idsWhere p)) where
  get? := by rw [get?_retireWhere, get?_retireWhere, h.get?]
  isRetired := by
    rw [Bool.eq_iff_iff, isRetired_retireWhere, isRetired_retireWhere, h.get?, h.isRetired]

theorem contains_idsWhere (h : SameAt id l l') (p : Negotiation → Bool) :
    (l'.idsWhere p).contains id = (l.idsWhere p).contains id := by
  rw [Bool.eq_iff_iff, List.contains_iff_mem, List.contains_iff_mem, mem_idsWhere, mem_idsWhere,
    h.get?]

theorem act (h : SameAt id l l') {a : Action} (bears : a.bearsOn id) :
    SameAt id (l.act a) (l'.act a) := by
  cases a with
  | observe now sender receiver other m =>
    cases eq_of_beq bears
    simp only [Ledger.act, observe, h.judge]
    cases l.judge now sender receiver id m with
    | error breach => exact h
    | ok n => exact h.file n
  | retire other => exact h.retire other
  | removeAgent agent => exact h.retireWhere fun n => n.involves agent
  | expireIdle now maxIdle => exact h.retireWhere fun n => maxIdle < now - n.lastActivity

theorem answer? (h : SameAt id l l') {a : Action} (bears : a.bearsOn id) :
    l'.answer? id a = l.answer? id a := by
  cases a with
  | observe now sender receiver other m =>
    cases eq_of_beq bears
    simp only [Ledger.answer?, observe, h.judge]
    cases l.judge now sender receiver id m with
    | error breach => rfl
    | ok n => rfl
  | retire other => rw [Ledger.answer?, Ledger.answer?, h.get?]
  | removeAgent agent =>
    have later : SameAt id (l.removeAgent agent).2 (l'.removeAgent agent).2 :=
      h.retireWhere fun n => n.involves agent
    rw [Ledger.answer?, Ledger.answer?, h.get?, later.get?]
  | expireIdle now maxIdle =>
    have listed := h.contains_idsWhere fun n => maxIdle < now - n.lastActivity
    exact congrArg (fun b => some (Answer.expired b)) listed

end SameAt

theorem sameAt_act_of_not_bearsOn (hl : l.WellKept) {a : Action} (apart : a.bearsOn id = false) :
    SameAt id l (l.act a) := by
  cases a with
  | observe now sender receiver other m =>
    have named : other ≠ id := by simpa [Action.bearsOn] using apart
    rcases observe_cases hl now sender receiver other id m with ⟨n, posted, -⟩ | ⟨-, same, retired⟩
    · rw [posting?, if_neg fun both => named both.1] at posted
      cases posted
    · exact ⟨same, Bool.eq_iff_iff.mpr retired⟩
  | retire other =>
    have named : id ≠ other := by
      rintro rfl
      simp [Action.bearsOn] at apart
    refine ⟨(get?_retire other).trans (if_neg named), Bool.eq_iff_iff.mpr ?_⟩
    rw [act, isRetired_retire, or_iff_right named]
  | removeAgent agent => cases apart
  | expireIdle now maxIdle => cases apart

theorem answer?_of_not_bearsOn {a : Action} (apart : a.bearsOn id = false) :
    l.answer? id a = none := by
  cases a with
  | observe now sender receiver other m => exact if_neg (by simpa [Action.bearsOn] using apart)
  | retire other => exact if_neg (by simpa [Action.bearsOn] using apart)
  | removeAgent agent => cases apart
  | expireIdle now maxIdle => cases apart

/-- Two ledgers that agree under an id still do so behind a run and behind what of the run bears on
the id, and on the way both tell the same. -/
theorem SameAt.run (h : SameAt id l l') (hl : l.WellKept) (actions : List Action) :
    SameAt id (Run.last Ledger.act l actions)
        (Run.last Ledger.act l' (actions.filter (·.bearsOn id))) ∧
      l'.answers id (actions.filter (·.bearsOn id)) = l.answers id actions := by
  have mine (l l' : Ledger) (a a' : Action) (own : Option.guard (Action.bearsOn id) a = some a')
      (h : SameAt id l l' ∧ l.WellKept) :
      (SameAt id (l.act a) (l'.act a') ∧ (l.act a).WellKept) ∧
        ((l.answer? id a).map (a, ·)).toList = ((l'.answer? id a').map (a', ·)).toList := by
    obtain ⟨rfl, bears⟩ := Option.guard_eq_some_iff.mp own
    exact ⟨⟨h.1.act bears, wellKept_act h.2 a⟩, by rw [h.1.answer? bears]⟩
  have others (l l' : Ledger) (a : Action) (foreign : Option.guard (Action.bearsOn id) a = none)
      (h : SameAt id l l' ∧ l.WellKept) :
      (SameAt id (l.act a) l' ∧ (l.act a).WellKept) ∧
        ((l.answer? id a).map (a, ·)).toList = [] := by
    have apart : a.bearsOn id = false := Option.guard_eq_none_iff.mp foreign
    refine ⟨⟨(sameAt_act_of_not_bearsOn h.2 apart).symm.trans h.1, wellKept_act h.2 a⟩, ?_⟩
    rw [answer?_of_not_bearsOn apart]
    rfl
  have project := Run.last_project mine others ⟨h, hl⟩ actions
  rw [List.filterMap_eq_filter] at project
  exact ⟨project.1.1, project.2.symm⟩

/-- Without the messages and retirements under other ids, every call that bears on an id is answered
as before, and the id stands as before at every point of the run. This holds for times in any order,
so also for those of a clock that never goes back. -/
theorem conversations_independent (id : String) (actions : List Action) :
    answers .empty id (actions.filter (·.bearsOn id)) = answers .empty id actions ∧
    ∀ before after, actions = before ++ after →
      (replay (before.filter (·.bearsOn id))).get? id = (replay before).get? id ∧
      (replay (before.filter (·.bearsOn id))).isRetired id = (replay before).isRetired id := by
  refine ⟨((SameAt.refl id .empty).run wellKept_empty actions).2, ?_⟩
  rintro before after rfl
  have same := ((SameAt.refl id .empty).run wellKept_empty before).1
  exact ⟨same.get?, same.isRetired⟩

end AgentBroker.Ledger
