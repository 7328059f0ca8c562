import AgentBroker.Query
import AgentBroker.Wire.Class

/-!
# The wire form of descriptions and queries
-/

namespace AgentBroker

open Json

namespace ValueType

def wireName : ValueType → String
  | int => "int"
  | float => "float"
  | bool => "bool"
  | string => "string"
  | location => "location"

def wireNames : List (String × ValueType) :=
  [int, float, bool, string, location].map fun t => (t.wireName, t)

instance : Wire ValueType := ⟨fun t => Json.ofString t.wireName, name? wireNames⟩

end ValueType

instance : Wire Location where
  toJson l := record [("latitude", toJson l.latitude), ("longitude", toJson l.longitude)]
  ofJson? j := do
    let [latitude, longitude] ← j.record? ["latitude", "longitude"] | none
    return ⟨← field? latitude, ← field? longitude⟩

instance : Wire Value where
  toJson
    | .int i => variant "int" (toJson i)
    | .float x => variant "float" (toJson x)
    | .bool b => variant "bool" (toJson b)
    | .string s => variant "string" (toJson s)
    | .location l => variant "location" (toJson l)
  ofJson? j := do
    let (name, some body) ← j.variant? | none
    match name with
    | "int" => (ofJson? body).map .int
    | "float" => (ofJson? body).map .float
    | "bool" => (ofJson? body).map .bool
    | "string" => (ofJson? body).map .string
    | "location" => (ofJson? body).map .location
    | _ => none

instance : Wire Attribute where
  toJson a :=
    record [("name", toJson a.name), ("type", toJson a.type), ("required", toJson a.required)]
  ofJson? j := do
    let [name, type, required] ← j.record? ["name", "type", "required"] | none
    return ⟨← field? name, ← field? type, ← field? required⟩

instance : Wire DataModel where
  toJson m :=
    record [("name", toJson m.name), ("attributes", toJson m.attributes),
      ("description", toJson m.description)]
  ofJson? j := do
    let [name, attributes, description] ← j.record? ["name", "attributes", "description"] | none
    return ⟨← field? name, ← field? attributes, ← field? description⟩

/-- Of two values for one name the later counts. -/
instance : Wire Values where
  toJson vs := record (vs.toList.map fun (name, v) => (name, toJson v))
  ofJson? j := (j.members? ofJson?).map fun vs => Std.ExtTreeMap.ofList vs

instance : Wire Instance where
  toJson i := record [("model", toJson i.model), ("values", toJson i.values)]
  ofJson? j := do
    let [model, values] ← j.record? ["model", "values"] | none
    return ⟨← field? model, ← field? values⟩

namespace RelationOp

def wireName : RelationOp → String
  | eq => "eq"
  | lt => "lt"
  | gt => "gt"
  | ltEq => "lt_eq"
  | gtEq => "gt_eq"
  | notEq => "not_eq"

def all : List RelationOp := [eq, lt, gt, ltEq, gtEq, notEq]

instance : Wire RelationOp :=
  ⟨fun op => Json.ofString op.wireName, name? (all.map fun op => (op.wireName, op))⟩

end RelationOp

instance : Wire Relation where
  toJson r := record [("op", toJson r.op), ("value", toJson r.value)]
  ofJson? j := do
    let [op, value] ← j.record? ["op", "value"] | none
    return ⟨← field? op, ← field? value⟩

namespace SetOp

def wireName : SetOp → String
  | isIn => "in"
  | notIn => "not_in"

instance : Wire SetOp :=
  ⟨fun op => Json.ofString op.wireName, name? ([isIn, notIn].map fun op => (op.wireName, op))⟩

end SetOp

instance : Wire Condition where
  toJson
    | .relation r => variant "relation" (toJson r)
    | .range min max => variant "range" (record [("min", toJson min), ("max", toJson max)])
    | .set op values => variant "set" (record [("op", toJson op), ("values", toJson values)])
    | .distance center maxKm =>
      variant "distance" (record [("center", toJson center), ("max_km", toJson maxKm)])
  ofJson? j := do
    let (name, some body) ← j.variant? | none
    match name with
    | "relation" => (ofJson? body).map .relation
    | "range" =>
      let [min, max] ← body.record? ["min", "max"] | none
      return .range (← field? min) (← field? max)
    | "set" =>
      let [op, values] ← body.record? ["op", "values"] | none
      return .set (← field? op) (← field? values)
    | "distance" =>
      let [center, maxKm] ← body.record? ["center", "max_km"] | none
      return .distance (← field? center) (← field? maxKm)
    | _ => none

instance : Wire Constraint where
  toJson c := record [("attribute", toJson c.attr), ("kind", toJson c.condition)]
  ofJson? j := do
    let [attr, condition] ← j.record? ["attribute", "kind"] | none
    return ⟨← field? attr, ← field? condition⟩

instance : Wire Query where
  toJson q := record [("constraints", toJson q.constraints), ("model", toJson q.model)]
  ofJson? j := do
    let [constraints, model] ← j.record? ["constraints", "model"] | none
    return ⟨← field? constraints, ← optionalField? model⟩

end AgentBroker
