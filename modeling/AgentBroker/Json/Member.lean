import AgentBroker.Wire.Class

/-!
# Members of a record

Reads the members of a JSON record by their names. A record without such a member, or any other
value, gives none or the given default.
-/

namespace AgentBroker.Json

def get? (j : Json) (key : String) : Option Json :=
  match j with
  | .object members => (members.find? (·.1 == some key)).map (·.2)
  | _ => none

/-- A member that is there and not null. -/
def given? (j : Json) (key : String) : Option Json :=
  match j.get? key with
  | some .null => none
  | v => v

def str? (j : Json) (key : String) : Option String := (j.get? key).bind string?

def strOr (j : Json) (key default : String) : String := (j.str? key).getD default

def count? (j : Json) (key : String) : Option Nat := (j.get? key).bind nat?

def countOr (j : Json) (key : String) (default : Nat) : Nat := (j.count? key).getD default

def boolOr (j : Json) (key : String) (default : Bool) : Bool :=
  ((j.get? key).bind bool?).getD default

def items? (j : Json) (key : String) : Option (List Json) :=
  match j.get? key with
  | some (.array items) => some items
  | _ => none

def itemsOr (j : Json) (key : String) : List Json := (j.items? key).getD []

def strings (j : Json) (key : String) : List String := (j.itemsOr key).filterMap string?

def texts (j : Json) (key : String) : List (String × String) :=
  match j.get? key with
  | some (.object members) => members.filterMap fun (k, v) => do return (← k, ← v.string?)
  | _ => []

def wire? {α : Type} [Wire α] (j : Json) (key : String) : Option α := (j.get? key).bind ofJson?

def wireOr? {α : Type} [Wire α] [Inhabited α] (j : Json) (key : String) : Option α :=
  match j.given? key with
  | none => some default
  | some v => ofJson? v

end AgentBroker.Json
