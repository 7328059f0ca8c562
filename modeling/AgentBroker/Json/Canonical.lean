import AgentBroker.Json.Real
import Std.Data.ExtTreeMap

/-!
# Canonical JSON

One form for all texts of a value: the members of an object stand in the order of their keys, the
last of equal keys counts, and numbers are integers of 64 bits or doubles.
-/

namespace AgentBroker.Json

/-- The form of a number. One that fits neither 64 bits nor a double has none. -/
def canonicalNumber (n : Number) : Json :=
  let real : Json := (n.toFloat?.map ofFloat).getD null
  match n.toInt? with
  | some i => if Int64.minValue.toInt ≤ i ∧ i < UInt64.size then ofInt i else real
  | none => real

def sortMembers (members : List (String × Json)) : List (String × Json) :=
  (Std.ExtTreeMap.ofList members).toList

mutual

def canonical : Json → Json
  | number n => canonicalNumber n
  | array items => array (canonicalItems items)
  | object members => record (sortMembers (canonicalMembers members))
  | v => v

def canonicalItems : List Json → List Json
  | [] => []
  | v :: vs => canonical v :: canonicalItems vs

def canonicalMembers : List (Option String × Json) → List (String × Json)
  | [] => []
  | (k, v) :: ms => (k.getD "", canonical v) :: canonicalMembers ms

end

end AgentBroker.Json
