import AgentBroker.Message.Envelope

/-!
# Numbers of envelopes

An agent numbers its envelopes from one, so that answers can name the envelope that they answer. An
envelope that has a number of its own keeps it and uses none up.
-/

namespace AgentBroker

/-- The last number given. -/
structure Numbering where
  last : UInt32
  deriving DecidableEq, Repr

namespace Numbering

def start : Numbering := ⟨0⟩

/-- Gives an envelope its number. Behind `2 ^ 32 - 1` the number wraps to zero, as it does without
overflow checks; with them the program panics there. -/
def stamp (n : Numbering) (e : Envelope) : Envelope × Numbering :=
  if e.msgId = 0 then ({ e with msgId := n.last + 1 }, ⟨n.last + 1⟩) else (e, n)

theorem stamp_of_ne_zero {n : Numbering} {e : Envelope} (h : e.msgId ≠ 0) : n.stamp e = (e, n) := by
  simp [stamp, h]

end Numbering

end AgentBroker
