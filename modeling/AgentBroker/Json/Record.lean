import AgentBroker.Json.Value

/-!
# Records and variants

How typed data stands in JSON: a record is an object (or the array of its members in order), a
choice is a name or an object with the name as its only key.
-/

namespace AgentBroker.Json

/-- The member of an object under `key`: absent, or given exactly once. -/
def uniqueMember? (key : String) (members : List (Option String × Json)) : Option (Option Json) :=
  match members.filter fun m => m.1 == some key with
  | [] => some none
  | [(_, v)] => some (some v)
  | _ => none

/-- The members of a record with the given keys. An object may hold other keys as well, but none
that is no text and none of the record's own twice. An array may be shorter than the record, but
not longer. -/
def record? (keys : List String) : Json → Option (List (Option Json))
  | object members =>
    if members.all fun m => m.1.isSome then keys.mapM (uniqueMember? · members) else none
  | array items =>
    if items.length ≤ keys.length then
      some (items.map some ++ List.replicate (keys.length - items.length) none)
    else none
  | _ => none

def variant? : Json → Option (String × Option Json)
  | string (some name) => some (name, none)
  | object [(some name, body)] => some (name, some body)
  | _ => none

def required? {α : Type} (read : Json → Option α) (member : Option Json) : Option α :=
  member.bind read

def defaulted? {α : Type} (read : Json → Option α) (default : α) (member : Option Json) :
    Option α :=
  match member with
  | none => some default
  | some v => read v

def nullable? {α : Type} (read : Json → Option α) : Json → Option (Option α)
  | null => some none
  | v => (read v).map some

def optional? {α : Type} (read : Json → Option α) (member : Option Json) : Option (Option α) :=
  defaulted? (nullable? read) none member

/-- A variant without a body: the name alone, or with null behind it. -/
def isBare : Option Json → Bool
  | none => true
  | some null => true
  | some _ => false

def bool? : Json → Option Bool
  | bool b => some b
  | _ => none

def string? : Json → Option String
  | string s => s
  | _ => none

def number? : Json → Option Number
  | number n => some n
  | _ => none

def list? {α : Type} (read : Json → Option α) : Json → Option (List α)
  | array items => items.mapM read
  | _ => none

def members? {α : Type} (read : Json → Option α) : Json → Option (List (String × α))
  | object members => members.mapM fun (k, v) => do return (← k, ← read v)
  | _ => none

def nat? (v : Json) : Option Nat := v.number?.bind Number.toNat?

def natBelow? (bound : Nat) (v : Json) : Option Nat :=
  v.nat?.bind fun n => if n < bound then some n else none

def uint16? (v : Json) : Option UInt16 := (v.natBelow? UInt16.size).map UInt16.ofNat
def uint32? (v : Json) : Option UInt32 := (v.natBelow? UInt32.size).map UInt32.ofNat
def uint64? (v : Json) : Option UInt64 := (v.natBelow? UInt64.size).map UInt64.ofNat

def int64? (v : Json) : Option Int64 :=
  (v.number?.bind Number.toInt?).bind fun i =>
    if Int64.minValue.toInt ≤ i ∧ i ≤ Int64.maxValue.toInt then some (Int64.ofInt i) else none

def float? (v : Json) : Option Float := v.number?.bind Number.toFloat?

def record (members : List (String × Json)) : Json := object (members.map fun (k, v) => (some k, v))

def ofString (s : String) : Json := string (some s)
def ofNat (n : Nat) : Json := number (.ofNat n)
def ofInt (i : Int) : Json := number (.ofInt i)

def variant (name : String) (body : Json) : Json := object [(some name, body)]

def ofOption {α : Type} (write : α → Json) : Option α → Json
  | none => null
  | some a => write a

end AgentBroker.Json
