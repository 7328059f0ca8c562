/-!
# Spans of time

Times and spans are whole nanoseconds.
-/

namespace AgentBroker

abbrev Nanos := Nat

namespace Nanos

def ofMillis (n : Nat) : Nanos := n * 1000000

def ofSeconds (n : Nat) : Nanos := n * 1000000000

/-- Digits behind the point without the zeros at their end, `places` digits long before that. -/
def fractionText (places rest : Nat) : String :=
  let ds := Nat.toDigits 10 rest
  let ds := List.replicate (places - ds.length) '0' ++ ds
  let kept := (ds.reverse.dropWhile (· == '0')).reverse
  if kept = [] then "" else "." ++ String.ofList kept

/-- A span in the largest unit of which there is at least one, without zeros at the end. -/
def text (n : Nanos) : String :=
  let inUnit (places : Nat) (unit : String) :=
    toString (n / Nat.pow 10 places) ++ fractionText places (n % Nat.pow 10 places) ++ unit
  if 1000000000 ≤ n then inUnit 9 "s"
  else if 1000000 ≤ n then inUnit 6 "ms"
  else if 1000 ≤ n then inUnit 3 "µs"
  else inUnit 0 "ns"

end Nanos

end AgentBroker
