import AgentBroker.Frame

/-!
# Pipes

A pipe carries bytes one way. It holds a bounded number of them. When either end leaves, what is
inside can still be read, and nothing more can be written.
-/

namespace AgentBroker

structure Pipe where
  capacity : Nat
  bytes : Bytes
  isOpen : Bool
  deriving DecidableEq, Repr

namespace Pipe

def empty (capacity : Nat) : Pipe := ⟨capacity, [], true⟩

def close (p : Pipe) : Pipe := { p with isOpen := false }

def room (p : Pipe) : Nat := p.capacity - p.bytes.length

def put (p : Pipe) (bytes : Bytes) : Pipe := { p with bytes := p.bytes ++ bytes.take p.room }

def take (p : Pipe) (n : Nat) : Bytes × Pipe :=
  (p.bytes.take n, { p with bytes := p.bytes.drop n })

theorem take_append (p : Pipe) (n : Nat) : (p.take n).1 ++ (p.take n).2.bytes = p.bytes := by
  simp [take]

theorem bytes_put_of_le {p : Pipe} {bytes : Bytes} (h : bytes.length ≤ p.room) :
    (p.put bytes).bytes = p.bytes ++ bytes := by
  simp [put, List.take_of_length_le h]

end Pipe

end AgentBroker
