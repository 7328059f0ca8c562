import AgentBroker.Query
import AgentBroker.Proofs.Description.Order
import AgentBroker.Proofs.Description.Validation

/-!
# Validation of queries

A query is accepted exactly when it is well formed: its model has no name twice, and every constraint
asks something that makes sense for values of its type, of an attribute that the model knows.
-/

namespace AgentBroker

namespace Condition

variable {condition : Condition} {type : ValueType}

/-- A condition that can be put to values of the type. -/
def WellFormed (type : ValueType) : Condition → Prop
  | relation r => r.value.type = type
  | range min max =>
    min.type = type ∧ max.type = type ∧ (type = .int ∨ type = .float ∨ type = .string) ∧
      ¬ max.Less min
  | set _ values => values ≠ [] ∧ ∀ v ∈ values, v.type = type
  | distance _ maxKm => type = .location ∧ ¬ maxKm.isNaN ∧ ¬ maxKm < 0.0

theorem wellFormed_iff :
    condition.WellFormed type ↔
      (∀ t ∈ condition.operandTypes, t = type) ∧ condition.flaw? type = none := by
  cases condition with
  | relation r => simp [WellFormed, operandTypes, flaw?]
  | range min max =>
    rw [WellFormed, operandTypes, flaw?, ← Value.compare?_eq_gt_iff]
    cases type <;> simp [and_assoc]
  | set op values =>
    cases values with
    | nil => simp [WellFormed, flaw?]
    | cons v values => simp [WellFormed, operandTypes, flaw?]
  | distance center maxKm =>
    simp [WellFormed, operandTypes, flaw?, eq_comm (a := type)]

end Condition

theorem Constraint.validate_eq_ok_iff {c : Constraint} :
    c.validate = .ok () ↔ c.condition.WellFormed c.attr.type := by
  have flawless : c.validate = .ok () ↔ c.flaw? = none := by
    rw [validate]
    split
    next flaw found => simp [found]
    next none => simp [none]
  have operands : c.condition.operandTypes.find? (· != c.attr.type) = none ↔
      ∀ t ∈ c.condition.operandTypes, t = c.attr.type := by
    simp
  rw [flawless, flaw?, Condition.wellFormed_iff, ← operands]
  split
  next t found => simp [found]
  next none => simp [none]

namespace Query

variable {q : Query} {model : Option DataModel}

structure WellFormed (q : Query) : Prop where
  distinct : ∀ m, q.model = some m → m.Distinct
  constraints : ∀ c ∈ q.constraints, c.condition.WellFormed c.attr.type
  declared : ∀ m, q.model = some m → ∀ c ∈ q.constraints, m.Declares c.attr.name

theorem bind_eq_ok_iff {ε α : Type} {x : Except ε Unit} {y : Except ε α} {a : α} :
    (x >>= fun _ => y) = .ok a ↔ x = .ok () ∧ y = .ok a := by
  cases x with
  | error e => simp [bind, Except.bind]
  | ok u => simp [bind, Except.bind]

theorem forM_eq_ok_iff {ε α : Type} {f : α → Except ε Unit} {xs : List α} :
    xs.forM f = .ok () ↔ ∀ x ∈ xs, f x = .ok () := by
  induction xs with
  | nil => simp [pure, Except.pure]
  | cons x rest ih =>
    change (f x >>= fun _ => rest.forM f) = .ok () ↔ _
    rw [bind_eq_ok_iff, ih, List.forall_mem_cons]

theorem validateConstraint_eq_ok_iff {c : Constraint} :
    validateConstraint model c = .ok () ↔
      c.condition.WellFormed c.attr.type ∧ ∀ m, model = some m → m.Declares c.attr.name := by
  unfold validateConstraint
  rw [bind_eq_ok_iff, Constraint.validate_eq_ok_iff]
  refine and_congr_right fun _ => ?_
  cases model with
  | none => simp
  | some m =>
    have declared : (m.attribute? c.attr.name).isSome ↔ m.Declares c.attr.name :=
      DataModel.isSome_attribute?_iff
    simp [declared]

theorem validate_eq_ok_iff : q.validate = .ok () ↔ q.WellFormed := by
  obtain ⟨constraints, model⟩ := q
  have split : validate ⟨constraints, model⟩ = .ok () ↔
      (∀ m, model = some m → m.Distinct) ∧
        constraints.forM (validateConstraint model) = .ok () := by
    cases model with
    | none => exact bind_eq_ok_iff.trans (by simp)
    | some m => exact bind_eq_ok_iff.trans (by simp [DataModel.validate_eq_ok_iff])
  rw [split, forM_eq_ok_iff]
  simp only [validateConstraint_eq_ok_iff]
  constructor
  · rintro ⟨distinct, each⟩
    exact ⟨distinct, fun c mem => (each c mem).1, fun m asked c mem => (each c mem).2 m asked⟩
  · intro h
    exact ⟨h.distinct, fun c mem => ⟨h.constraints c mem, fun m asked => h.declared m asked c mem⟩⟩

end Query

/-- Validation accepts exactly what is well formed, and an instance is refused for a misfit that it
has. -/
theorem validation_exact :
    (∀ i : Instance, (i.validate = .ok () ↔ i.Fits) ∧
      ∀ misfit, i.validate = .error misfit → i.Violates misfit) ∧
    ∀ q : Query, q.validate = .ok () ↔ q.WellFormed :=
  ⟨fun _ => ⟨Instance.validate_eq_ok_iff, fun _ => Instance.violates_of_validate⟩,
    fun _ => Query.validate_eq_ok_iff⟩

/-- A text where a truth value is declared. -/
theorem validation_exact_mistyped :
    let i : Instance :=
      ⟨⟨"car", [⟨"luxury", .bool, true⟩], ""⟩, .ofList [("luxury", Value.string "yes")]⟩
    i.validate = .error (.typeMismatch "luxury" .bool .string) ∧
      i.Violates (.typeMismatch "luxury" .bool .string) := by
  intro i
  have refused : i.validate = .error (.typeMismatch "luxury" .bool .string) := by decide +kernel
  exact ⟨refused, (validation_exact.1 i).2 _ refused⟩

end AgentBroker
