import AgentBroker.Text.Digit

/-!
# IPv4 addresses

Four numbers below 256 with points between them.
-/

namespace AgentBroker

structure Ipv4 where
  a : UInt8
  b : UInt8
  c : UInt8
  d : UInt8
  deriving DecidableEq, Repr, Inhabited

namespace Ipv4

/-- A number below 256 of at most three digits, without zeros in front. -/
def octet? (cs : List Char) : Option (UInt8 × List Char) :=
  let (ds, rest) := takeDigits 10 cs
  let n := ofDigits 10 ds
  if ds.length = 0 ∨ 3 < ds.length ∨ (ds.head? = some 0 ∧ 1 < ds.length) ∨ 255 < n then none
  else some (UInt8.ofNat n, rest)

def nextOctet? : List Char → Option (UInt8 × List Char)
  | '.' :: cs => octet? cs
  | _ => none

def read? (cs : List Char) : Option (Ipv4 × List Char) := do
  let (a, cs) ← octet? cs
  let (b, cs) ← nextOctet? cs
  let (c, cs) ← nextOctet? cs
  let (d, cs) ← nextOctet? cs
  return (⟨a, b, c, d⟩, cs)

def text (i : Ipv4) : String :=
  ".".intercalate ([i.a, i.b, i.c, i.d].map fun n => toString n.toNat)

end Ipv4

end AgentBroker
