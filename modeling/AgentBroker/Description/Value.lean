/-!
# Typed values

The values an attribute can have. Values of different types are never equal and never compared, and
no number is turned into one of another type.
-/

namespace AgentBroker

inductive ValueType where
  | int
  | float
  | bool
  | string
  | location
  deriving DecidableEq, Repr, Inhabited

namespace ValueType

def label : ValueType → String
  | int => "Int"
  | float => "Float"
  | bool => "Bool"
  | string => "String"
  | location => "Location"

end ValueType

structure Location where
  latitude : Float
  longitude : Float
  deriving BEq, Repr, Inhabited

inductive Value where
  | int (i : Int64)
  | float (x : Float)
  | bool (b : Bool)
  | string (s : String)
  | location (l : Location)
  deriving BEq, Repr, Inhabited

/-- The order of two doubles; there is none if one of them is no number. -/
def compareFloats? (x y : Float) : Option Ordering :=
  if x < y then some .lt
  else if y < x then some .gt
  else if x == y then some .eq
  else none

namespace Value

def type : Value → ValueType
  | int _ => .int
  | float _ => .float
  | bool _ => .bool
  | string _ => .string
  | location _ => .location

/-- The order of two values of the same type. Locations have none. -/
def compare? : Value → Value → Option Ordering
  | int a, int b => some (compare a b)
  | float a, float b => compareFloats? a b
  | bool a, bool b => some (compare a b)
  | string a, string b => some (compare a b)
  | _, _ => none

end Value

end AgentBroker
