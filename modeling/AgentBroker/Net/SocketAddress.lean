import AgentBroker.Net.Ipv6

/-!
# Socket addresses

An IPv4 address and a port, or an IPv6 address in brackets, which may name a zone by its number,
and a port.
-/

namespace AgentBroker

inductive SocketAddress where
  | v4 (ip : Ipv4) (port : UInt16)
  | v6 (ip : Ipv6) (zone : UInt32) (port : UInt16)
  deriving DecidableEq, Repr

namespace SocketAddress

def number? (bound : Nat) (cs : List Char) : Option (Nat × List Char) :=
  let (ds, rest) := takeDigits 10 cs
  let n := ofDigits 10 ds
  if ds.length = 0 ∨ bound ≤ n then none else some (n, rest)

def port? : List Char → Option UInt16
  | ':' :: cs =>
    match number? UInt16.size cs with
    | some (n, []) => some (UInt16.ofNat n)
    | _ => none
  | _ => none

/-- The zone behind a percent sign, 0 if there is none. -/
def zone (cs : List Char) : UInt32 × List Char :=
  match cs with
  | '%' :: rest =>
    match number? UInt32.size rest with
    | some (n, rest) => (UInt32.ofNat n, rest)
    | none => (0, cs)
  | _ => (0, cs)

def v6? (cs : List Char) : Option SocketAddress := do
  let (ip, cs) ← Ipv6.read? cs
  match zone cs with
  | (zone, ']' :: cs) => return .v6 ip zone (← port? cs)
  | _ => none

def ofChars? : List Char → Option SocketAddress
  | '[' :: cs => v6? cs
  | cs => do
    let (ip, cs) ← Ipv4.read? cs
    return .v4 ip (← port? cs)

def parse? (s : String) : Option SocketAddress := ofChars? s.toList

def text : SocketAddress → String
  | v4 ip port => ip.text ++ ":" ++ toString port.toNat
  | v6 ip zone port =>
    "[" ++ ip.text ++ (if zone = 0 then "" else "%" ++ toString zone.toNat) ++ "]:" ++
      toString port.toNat

end SocketAddress

end AgentBroker
