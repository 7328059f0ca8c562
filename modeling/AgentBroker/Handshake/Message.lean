/-!
# Handshake messages

The four messages that admit an agent: who it is, the challenge (or a refusal), the answer, and the
verdict.
-/

namespace AgentBroker

structure Introduction where
  publicKey : String
  deriving DecidableEq, Repr, Inhabited

inductive Challenge where
  | phrase (s : String)
  | failure
  deriving DecidableEq, Repr, Inhabited

structure Answer where
  answer : String
  deriving DecidableEq, Repr, Inhabited

structure Verdict where
  status : Bool
  deriving DecidableEq, Repr, Inhabited

/-- The answer to a challenge: the phrase reversed. -/
def answerTo (phrase : String) : String := String.ofList phrase.toList.reverse

end AgentBroker
