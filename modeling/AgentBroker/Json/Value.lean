import AgentBroker.Json.Token

/-!
# JSON values

A value is read from its tokens by a machine that keeps the open arrays and objects on a stack, so
nesting has no limit. Members stay in the order of the text, with repetitions: which of them are
allowed is for the reader of a record to say.
-/

namespace AgentBroker

inductive Json where
  | null
  | bool (b : Bool)
  | number (n : Json.Number)
  /-- A string, with its text if the literal stands for one. -/
  | string (text : Option String)
  | array (items : List Json)
  | object (members : List (Option String × Json))
  deriving Repr, Inhabited

namespace Json

/-- A container that is still open, with its items or members so far, latest first. -/
inductive Frame where
  | array (items : List Json)
  | object (members : List (Option String × Json)) (key : Option String)

inductive Awaiting where
  | value (stack : List Frame)
  | firstItem (stack : List Frame)
  | firstKey (stack : List Frame)
  | key (members : List (Option String × Json)) (stack : List Frame)
  | colon (members : List (Option String × Json)) (key : Option String) (stack : List Frame)
  /-- A comma or the end of the container that `v` belongs to. -/
  | next (v : Json) (stack : List Frame)

namespace Awaiting

def beginValue (stack : List Frame) : Token → Option Awaiting
  | .null => some (.next .null stack)
  | .bool b => some (.next (.bool b) stack)
  | .number n => some (.next (.number n) stack)
  | .string s => some (.next (.string s) stack)
  | .openArray => some (.firstItem stack)
  | .openObject => some (.firstKey stack)
  | _ => none

def afterValue (v : Json) : List Frame → Token → Option Awaiting
  | .array items :: stack, .comma => some (.value (.array (v :: items) :: stack))
  | .array items :: stack, .closeArray => some (.next (.array (v :: items).reverse) stack)
  | .object members k :: stack, .comma => some (.key ((k, v) :: members) stack)
  | .object members k :: stack, .closeObject =>
    some (.next (.object ((k, v) :: members).reverse) stack)
  | _, _ => none

/-- One token moves the machine on, or fits nowhere. -/
def step : Awaiting → Token → Option Awaiting
  | .value stack, t => beginValue stack t
  | .firstItem stack, .closeArray => some (.next (.array []) stack)
  | .firstItem stack, t => beginValue (.array [] :: stack) t
  | .firstKey stack, .closeObject => some (.next (.object []) stack)
  | .firstKey stack, .string k => some (.colon [] k stack)
  | .key members stack, .string k => some (.colon members k stack)
  | .colon members k stack, .colon => some (.value (.object members k :: stack))
  | .next v stack, t => afterValue v stack t
  | _, _ => none

def result? : Awaiting → Option Json
  | .next v [] => some v
  | _ => none

def run : Awaiting → List Token → Option Json
  | state, [] => state.result?
  | state, t :: ts => (state.step t).bind fun state => run state ts

end Awaiting

def ofTokens? (tokens : List Token) : Option Json := Awaiting.run (.value []) tokens

def ofGlyphs? (glyphs : List Glyph) : Option Json := (Token.scan glyphs).bind ofTokens?

def parse? (bytes : List UInt8) : Option Json := ofGlyphs? (Glyph.scan bytes.toByteArray)

end Json

end AgentBroker
