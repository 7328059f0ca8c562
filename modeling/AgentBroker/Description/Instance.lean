import AgentBroker.Description.DataModel
import Std.Data.ExtTreeMap

/-!
# Instances

An instance gives values to the attributes of a data model. It fits when the model is well formed,
every value belongs to a declared attribute and has its type, and no required value is missing.
Instances that arrive from outside may not fit; they are checked before they are used.
-/

namespace AgentBroker

abbrev Values := Std.ExtTreeMap String Value

structure Instance where
  model : DataModel
  values : Values

namespace Instance

def value? (i : Instance) (name : String) : Option Value := i.values[name]?

def valueMisfit? (m : DataModel) (name : String) (v : Value) : Option Misfit :=
  match m.attribute? name with
  | none => some (.unknownAttribute m.name name)
  | some a => if a.type = v.type then none else some (.typeMismatch name a.type v.type)

def missing? (i : Instance) : Option Attribute :=
  i.model.attributes.find? fun a => a.required && !i.values.contains a.name

/-- The first misfit: of the model, of a value in the order of the names, of a missing value. -/
def validate (i : Instance) : Except Misfit Unit := do
  i.model.validate
  match i.values.toList.findSome? fun (name, v) => valueMisfit? i.model name v with
  | some misfit => .error misfit
  | none =>
    match i.missing? with
    | some a => .error (.missingRequired i.model.name a.name)
    | none => .ok ()

/-- An instance that fits. Of two values for one name the later counts. -/
def make (model : DataModel) (values : List (String × Value)) : Except Misfit Instance :=
  let i : Instance := ⟨model, Std.ExtTreeMap.ofList values⟩
  i.validate.map fun _ => i

end Instance

end AgentBroker
