import AgentBroker.Description.Distance
import AgentBroker.Description.Instance

/-!
# Queries

A query is a conjunction of constraints, which may be limited to the instances of one data model. A
constraint on an attribute without a value never holds.
-/

namespace AgentBroker

inductive RelationOp where
  | eq
  | lt
  | gt
  | ltEq
  | gtEq
  | notEq
  deriving DecidableEq, Repr, Inhabited

structure Relation where
  op : RelationOp
  value : Value
  deriving BEq, Repr, Inhabited

namespace Relation

def admits : RelationOp → Ordering → Bool
  | .lt, o => o == .lt
  | .gt, o => o == .gt
  | .ltEq, o => o != .gt
  | .gtEq, o => o != .lt
  | .eq, o => o == .eq
  | .notEq, o => o != .eq

/-- Values of another type never satisfy a relation, also a negative one. -/
def check (r : Relation) (candidate : Value) : Bool :=
  if candidate.type = r.value.type then
    match r.op with
    | .eq => candidate == r.value
    | .notEq => candidate != r.value
    | op =>
      match candidate.compare? r.value with
      | some o => admits op o
      | none => false
  else false

end Relation

inductive SetOp where
  | isIn
  | notIn
  deriving DecidableEq, Repr, Inhabited

inductive Condition where
  | relation (r : Relation)
  /-- Both ends belong to the range. -/
  | range (min max : Value)
  | set (op : SetOp) (values : List Value)
  | distance (center : Location) (maxKm : Float)
  deriving BEq, Repr, Inhabited

namespace Condition

/-- The first member stands for the type of a set. -/
def check : Condition → Value → Bool
  | relation r, v => r.check v
  | range min max, v =>
    (match v.compare? min with
      | some o => o != .lt
      | none => false) &&
    (match v.compare? max with
      | some o => o != .gt
      | none => false)
  | set op values, v =>
    (match values with
      | [] => true
      | first :: _ => first.type == v.type) &&
    (match op with
      | .isIn => values.any (· == v)
      | .notIn => !values.any (· == v))
  | distance center maxKm, .location l => center.distanceKm l ≤ maxKm
  | distance _ _, _ => false

def operandTypes : Condition → List ValueType
  | relation r => [r.value.type]
  | range min max => [min.type, max.type]
  | set _ values => values.map (·.type)
  | distance _ _ => [.location]

/-- What is wrong with a condition whose operands have the type `expected`. -/
def flaw? (expected : ValueType) : Condition → Option ConstraintFlaw
  | range min max =>
    if expected = .bool ∨ expected = .location then some (.rangeUndefined expected)
    else if min.compare? max = some .gt then some .rangeReversed
    else none
  | set _ [] => some .emptySet
  | distance _ maxKm => if maxKm.isNaN || maxKm < 0.0 then some .badDistance else none
  | _ => none

end Condition

structure Constraint where
  attr : Attribute
  condition : Condition
  deriving BEq, Repr, Inhabited

namespace Constraint

def check (c : Constraint) (i : Instance) : Bool :=
  match i.value? c.attr.name with
  | some v => c.condition.check v
  | none => false

def flaw? (c : Constraint) : Option ConstraintFlaw :=
  match c.condition.operandTypes.find? (· != c.attr.type) with
  | some actual => some (.operandType actual c.attr.type)
  | none => c.condition.flaw? c.attr.type

def validate (c : Constraint) : Except Misfit Unit :=
  match c.flaw? with
  | some flaw => .error (.invalidConstraint c.attr.name flaw.message)
  | none => .ok ()

end Constraint

structure Query where
  constraints : List Constraint
  model : Option DataModel
  deriving BEq, Repr, Inhabited

namespace Query

def validateConstraint (model : Option DataModel) (c : Constraint) : Except Misfit Unit := do
  c.validate
  match model with
  | none => .ok ()
  | some m =>
    if (m.attribute? c.attr.name).isSome then .ok ()
    else .error (.unknownAttribute m.name c.attr.name)

/-- The first misfit: of the model, then of each constraint in turn. -/
def validate (q : Query) : Except Misfit Unit := do
  match q.model with
  | some m => m.validate
  | none => .ok ()
  q.constraints.forM (validateConstraint q.model)

def make (constraints : List Constraint) (model : Option DataModel) : Except Misfit Query :=
  let q : Query := ⟨constraints, model⟩
  q.validate.map fun _ => q

/-- The instance has the model asked for, if any. -/
def admitsModel (q : Query) (i : Instance) : Bool :=
  match q.model with
  | some m => m.name == i.model.name
  | none => true

def check (q : Query) (i : Instance) : Bool :=
  q.admitsModel i && q.constraints.all (·.check i)

end Query

end AgentBroker
