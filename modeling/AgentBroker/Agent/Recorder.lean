import AgentBroker.Agent.Callback
import AgentBroker.Time

/-!
# Recorders

A recorder keeps every callback. One can wait for a number of callbacks up to a deadline.
-/

namespace AgentBroker

/-- The callbacks so far, oldest first. -/
abbrev Record := List Callback

namespace Record

def searchResult? (r : Record) (searchId : UInt32) : Option (List String) :=
  r.findSome? fun
    | .searchResult id agents => if id = searchId then some agents else none
    | _ => none

/-- What a wait from time zero gives back, of callbacks at their times: the callbacks before the
deadline, and no more than were waited for. -/
def waitFor (count : Nat) (deadline : Nanos) (arrivals : List (Nanos × Callback)) : Record :=
  ((arrivals.takeWhile (·.1 < deadline)).map (·.2)).take count

end Record

end AgentBroker
