import AgentBroker.Json.Real
import AgentBroker.Json.Printer

/-!
# The wire form of messages

A type with a wire form is written as JSON and read from it. Reading takes more than writing makes:
records may come as arrays, members with a default may be missing, unknown members are skipped.
-/

namespace AgentBroker

class Wire (α : Type) where
  toJson : α → Json
  ofJson? : Json → Option α

export Wire (toJson ofJson?)

namespace Wire

variable {α : Type} [Wire α]

def encode (a : α) : List UInt8 := (toJson a).encode

def decode? (bytes : List UInt8) : Option α := (Json.parse? bytes).bind ofJson?

instance : Wire String := ⟨Json.ofString, Json.string?⟩
instance : Wire Bool := ⟨Json.bool, Json.bool?⟩
instance : Wire UInt16 := ⟨fun n => Json.ofNat n.toNat, Json.uint16?⟩
instance : Wire UInt32 := ⟨fun n => Json.ofNat n.toNat, Json.uint32?⟩
instance : Wire UInt64 := ⟨fun n => Json.ofNat n.toNat, Json.uint64?⟩
instance : Wire Int64 := ⟨fun i => Json.ofInt i.toInt, Json.int64?⟩
instance : Wire Float := ⟨Json.ofFloat, Json.float?⟩
instance : Wire (List α) := ⟨fun as => Json.array (as.map toJson), Json.list? ofJson?⟩
instance : Wire (Option α) := ⟨Json.ofOption toJson, Json.nullable? ofJson?⟩

end Wire

namespace Json

variable {α : Type} [Wire α]

def field? (member : Option Json) : Option α := required? ofJson? member

def fieldOr? (default : α) (member : Option Json) : Option α := defaulted? ofJson? default member

def optionalField? (member : Option Json) : Option (Option α) := optional? ofJson? member

end Json

def Json.name? {α : Type} (names : List (String × α)) (j : Json) : Option α := do
  let (name, body) ← j.variant?
  if Json.isBare body then names.lookup name else none

end AgentBroker
