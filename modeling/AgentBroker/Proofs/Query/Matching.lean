import AgentBroker.Proofs.Query.Validation

/-!
# What a constraint matches

A relation tests the type of a value, a range compares only values of one type, and a set tests the
type of its first member. Together with validation this keeps every constraint to the values of its
attribute's type, and the three kinds agree wherever they ask the same.
-/

namespace AgentBroker

variable {v w : Value}

namespace Relation

variable {r : Relation} {op : RelationOp} {o : Ordering}

theorem type_eq_of_check (h : r.check v) : v.type = r.value.type := by
  rw [check] at h
  split at h
  next same => exact same
  next => cases h

theorem check_of_compare? (h : v.compare? w = some o) :
    (Relation.mk op w).check v = admits op o := by
  have equal : (v == w) = (o == .eq) := by
    rw [Bool.eq_iff_iff, Value.beq_iff_of_compare? h, beq_iff_eq]
  rw [check, if_pos (Value.type_eq_of_compare? h)]
  cases op with
  | eq => exact equal
  | notEq => exact congrArg Bool.not equal
  | _ => simp only [h]

theorem check_eq_any (order : op ≠ .eq ∧ op ≠ .notEq) :
    (Relation.mk op w).check v = (v.compare? w).any (admits op) := by
  cases compared : v.compare? w with
  | some o => exact check_of_compare? compared
  | none =>
    rw [check]
    split
    · cases op with
      | eq => exact absurd rfl order.1
      | notEq => exact absurd rfl order.2
      | _ => simp only [compared, Option.any_none]
    · rfl

theorem check_eq_iff : (Relation.mk .eq w).check v ↔ v.type = w.type ∧ v == w := by
  simp [check]

theorem check_notEq_iff : (Relation.mk .notEq w).check v ↔ v.type = w.type ∧ ¬ v == w := by
  simp [check, bne]

/-- The operators fit together for the candidate `v` and the operand `w`. -/
structure Coherent (v w : Value) : Prop where
  exactlyOne : ∃! op, (op = .lt ∨ op = .eq ∨ op = .gt) ∧ (Relation.mk op w).check v
  ltEq : (Relation.mk .ltEq w).check v ↔ (Relation.mk .lt w).check v ∨ (Relation.mk .eq w).check v
  gtEq : (Relation.mk .gtEq w).check v ↔ (Relation.mk .gt w).check v ∨ (Relation.mk .eq w).check v
  notEq : (Relation.mk .notEq w).check v ↔ ¬ (Relation.mk .eq w).check v

theorem existsUnique_admits (o : Ordering) :
    ∃! op, (op = .lt ∨ op = .eq ∨ op = .gt) ∧ admits op o := by
  refine ⟨match o with | .lt => .lt | .eq => .eq | .gt => .gt, by cases o <;> decide, ?_⟩
  rintro op ⟨rfl | rfl | rfl, h⟩ <;> cases eq_of_beq h <;> rfl

theorem coherent_of_compare? (h : v.compare? w = some o) : Coherent v w := by
  constructor <;> simp only [check_of_compare? h]
  case exactlyOne => exact existsUnique_admits o
  all_goals cases o <;> decide

end Relation

namespace Condition

variable {condition : Condition} {type : ValueType} {values : List Value}

/-- The first operand stands for all: what satisfies a condition has its type. -/
theorem type_eq_of_check (h : condition.check v)
    (first : condition.operandTypes.head? = some type) : v.type = type := by
  cases condition with
  | relation r =>
    cases first
    exact Relation.type_eq_of_check h
  | range min max =>
    cases first
    obtain ⟨low, -⟩ := Bool.and_eq_true_iff.mp h
    cases order : v.compare? min with
    | none => simp [order] at low
    | some o => exact Value.type_eq_of_compare? order
  | set op values =>
    cases values with
    | nil => cases first
    | cons member values =>
      cases first
      obtain ⟨same, -⟩ := Bool.and_eq_true_iff.mp h
      exact (eq_of_beq same).symm
  | distance center maxKm =>
    cases first
    cases v with
    | location l => rfl
    | _ => cases h

theorem WellFormed.type_eq_of_check (wellFormed : condition.WellFormed type)
    (h : condition.check v) : v.type = type := by
  obtain ⟨operands, flawless⟩ := wellFormed_iff.mp wellFormed
  cases first : condition.operandTypes.head? with
  | some t =>
    rw [Condition.type_eq_of_check h first]
    exact operands t (List.mem_of_head? first)
  | none =>
    -- Only an empty set has no operands.
    cases condition with
    | set op values =>
      cases values with
      | nil => exact absurd rfl wellFormed.1
      | cons => cases first
    | _ => cases first

theorem check_range (min max : Value) :
    (range min max).check v ↔
      (Relation.mk .gtEq min).check v ∧ (Relation.mk .ltEq max).check v := by
  rw [check, Bool.and_eq_true_iff, Relation.check_eq_any (by decide),
    Relation.check_eq_any (by decide)]
  refine and_congr ?_ ?_
  · cases v.compare? min <;> rfl
  · cases v.compare? max <;> rfl

theorem all_head?_iff {op : SetOp} (wellFormed : (set op values).WellFormed type) :
    values.head?.all (·.type == v.type) ↔ v.type = type := by
  obtain ⟨nonempty, types⟩ := wellFormed
  cases values with
  | nil => exact absurd rfl nonempty
  | cons first rest =>
    rw [List.head?_cons, Option.all_some, beq_iff_eq, types first List.mem_cons_self, eq_comm]

theorem check_set (op : SetOp) (values : List Value) (v : Value) :
    (set op values).check v = (values.head?.all (·.type == v.type) &&
      match op with
      | .isIn => values.any (· == v)
      | .notIn => !values.any (· == v)) := by
  cases values <;> rfl

theorem check_isIn (wellFormed : (set .isIn values).WellFormed type) :
    (set .isIn values).check v ↔ v.type = type ∧ ∃ w ∈ values, v == w := by
  rw [check_set, Bool.and_eq_true_iff, all_head?_iff wellFormed]
  simp only [List.any_eq_true, Value.beq_comm v]

theorem check_notIn (wellFormed : (set .notIn values).WellFormed type) :
    (set .notIn values).check v ↔ v.type = type ∧ ∀ w ∈ values, ¬ v == w := by
  rw [check_set, Bool.and_eq_true_iff, all_head?_iff wellFormed]
  simp only [Bool.not_eq_true', List.any_eq_false, Value.beq_comm v]

theorem check_isIn_iff_eq (wellFormed : (set .isIn values).WellFormed type) :
    (set .isIn values).check v ↔ ∃ w ∈ values, (Relation.mk .eq w).check v := by
  rw [check_isIn wellFormed]
  simp only [Relation.check_eq_iff]
  constructor
  · rintro ⟨same, w, mem, equal⟩
    exact ⟨w, mem, same.trans (wellFormed.2 w mem).symm, equal⟩
  · rintro ⟨w, mem, same, equal⟩
    exact ⟨same.trans (wellFormed.2 w mem), w, mem, equal⟩

theorem check_notIn_iff_notEq (wellFormed : (set .notIn values).WellFormed type) :
    (set .notIn values).check v ↔ ∀ w ∈ values, (Relation.mk .notEq w).check v := by
  rw [check_notIn wellFormed]
  simp only [Relation.check_notEq_iff]
  constructor
  · rintro ⟨same, differs⟩ w mem
    exact ⟨same.trans (wellFormed.2 w mem).symm, differs w mem⟩
  · intro each
    obtain ⟨w, mem⟩ := List.exists_mem_of_ne_nil values wellFormed.1
    exact ⟨(each w mem).1.trans (wellFormed.2 w mem), fun w mem => (each w mem).2⟩

end Condition

/-- The kinds of conditions agree with each other: a range asks for both bounds, a set for equality
with its members, and two values are in one order only, from which all operators follow. -/
theorem conditions_agree :
    (∀ min max v, (Condition.range min max).check v ↔
      (Relation.mk .gtEq min).check v ∧ (Relation.mk .ltEq max).check v) ∧
    (∀ attr values, (Constraint.mk attr (.set .isIn values)).validate = .ok () → ∀ v,
      ((Condition.set .isIn values).check v ↔ ∃ w ∈ values, (Relation.mk .eq w).check v)) ∧
    (∀ attr values, (Constraint.mk attr (.set .notIn values)).validate = .ok () → ∀ v,
      ((Condition.set .notIn values).check v ↔ ∀ w ∈ values, (Relation.mk .notEq w).check v)) ∧
    ∀ v w : Value, v.type = w.type → v.type = .int ∨ v.type = .bool ∨ v.type = .string →
      Relation.Coherent v w := by
  refine ⟨fun min max v => Condition.check_range min max, fun attr values valid v => ?_,
    fun attr values valid v => ?_, fun v w same ordered => ?_⟩
  · exact Condition.check_isIn_iff_eq (Constraint.validate_eq_ok_iff.mp valid)
  · exact Condition.check_notIn_iff_notEq (Constraint.validate_eq_ok_iff.mp valid)
  · obtain ⟨o, order⟩ := Value.exists_compare? same ordered
    exact Relation.coherent_of_compare? order

/-- A price against a set of prices, and two texts against each other. -/
theorem conditions_agree_prices :
    let price : Attribute := ⟨"price", .int, false⟩
    (Constraint.mk price (.set .notIn [.int 10, .int 20])).validate = .ok () ∧
      ¬ (Condition.set .notIn [.int 10, .int 20]).check (.float 15) ∧
      Relation.Coherent (.string "opes") (.string "youshiko") := by
  intro price
  have valid : (Constraint.mk price (.set .notIn [.int 10, .int 20])).validate = .ok () := by
    decide +kernel
  obtain ⟨-, -, sets, operators⟩ := conditions_agree
  refine ⟨valid, fun other => ?_, operators _ _ rfl (.inr (.inr rfl))⟩
  have differs := (sets price _ valid (.float 15)).mp other (.int 10) List.mem_cons_self
  cases Relation.type_eq_of_check differs

namespace Constraint

variable {c : Constraint} {i : Instance}

theorem check_iff :
    c.check i ↔ ∃ v, i.value? c.attr.name = some v ∧ c.condition.check v := by
  rw [check]
  cases i.value? c.attr.name with
  | none => simp
  | some v => simp

/-- The constraint keeps to values of the declared type, whatever instance it meets. -/
structure Typed (c : Constraint) : Prop where
  matched : ∀ i, c.check i → ∃ v, i.value? c.attr.name = some v ∧ v.type = c.attr.type
  /-- Also to differ from something takes a value, -/
  missing : ∀ i, i.value? c.attr.name = none → ¬ c.check i
  /-- and one of the declared type. -/
  mistyped : ∀ i v, i.value? c.attr.name = some v → v.type ≠ c.attr.type → ¬ c.check i
  /-- No operator works across types; a whole number never passes for another. -/
  operands : ∀ v, ∀ type ∈ c.condition.operandTypes, v.type ≠ type → ¬ c.condition.check v

end Constraint

/-- A constraint of an accepted query matches only by a value of the type that it declares. -/
theorem matching_typed {q : Query} (valid : q.validate = .ok ()) {c : Constraint}
    (mem : c ∈ q.constraints) : c.Typed := by
  have wellFormed := (Query.validate_eq_ok_iff.mp valid).constraints c mem
  have matched (i : Instance) (h : c.check i) :
      ∃ v, i.value? c.attr.name = some v ∧ v.type = c.attr.type := by
    obtain ⟨v, value, holds⟩ := Constraint.check_iff.mp h
    exact ⟨v, value, wellFormed.type_eq_of_check holds⟩
  refine ⟨matched, fun i absent h => ?_, fun i v value other h => ?_, fun v type mem other h => ?_⟩
  · obtain ⟨v, value, -⟩ := matched i h
    rw [absent] at value
    cases value
  · obtain ⟨w, value', same⟩ := matched i h
    cases value.symm.trans value'
    exact other same
  · have operand := (Condition.wellFormed_iff.mp wellFormed).1 type mem
    exact other ((wellFormed.type_eq_of_check h).trans operand.symm)

/-- A number is not a text other than "red". -/
theorem matching_typed_negative :
    let c : Constraint := ⟨⟨"colour", .string, false⟩, .set .notIn [.string "red"]⟩
    let i : Instance := ⟨⟨"car", [], ""⟩, .ofList [("colour", Value.int 3)]⟩
    Query.validate ⟨[c], none⟩ = .ok () ∧ ¬ c.check i := by
  intro c i
  have valid : Query.validate ⟨[c], none⟩ = .ok () := by decide +kernel
  have typed := matching_typed valid List.mem_cons_self
  have value : i.value? "colour" = some (.int 3) := by simp [i, Instance.value?]
  exact ⟨valid, typed.mistyped i (.int 3) value nofun⟩

/-- A set that was never validated may go by a first member of another type. -/
example :
    (Constraint.mk ⟨"colour", .string, false⟩ (.set .notIn [.int 1, .string "red"])).check
      ⟨⟨"car", [], ""⟩, .ofList [("colour", Value.int 3)]⟩ := by
  decide +kernel

end AgentBroker
