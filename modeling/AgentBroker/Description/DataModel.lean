import AgentBroker.Description.Misfit

/-!
# Data models

A data model names a list of typed attributes. It is well formed when no two of them share a name.
-/

namespace AgentBroker

structure Attribute where
  name : String
  type : ValueType
  required : Bool
  deriving DecidableEq, Repr, Inhabited

structure DataModel where
  name : String
  attributes : List Attribute
  description : String
  deriving DecidableEq, Repr, Inhabited

/-- The first name that stands behind an equal one, where `seen` came before. -/
def firstRepeat? (seen : List String) : List String → Option String
  | [] => none
  | a :: rest => if a ∈ seen then some a else firstRepeat? (a :: seen) rest

namespace DataModel

def attribute? (m : DataModel) (name : String) : Option Attribute :=
  m.attributes.find? (·.name == name)

def validate (m : DataModel) : Except Misfit Unit :=
  match firstRepeat? [] (m.attributes.map (·.name)) with
  | some a => .error (.duplicateAttribute m.name a)
  | none => .ok ()

def make (name : String) (attributes : List Attribute) (description : String) :
    Except Misfit DataModel :=
  let m : DataModel := ⟨name, attributes, description⟩
  m.validate.map fun _ => m

end DataModel

end AgentBroker
