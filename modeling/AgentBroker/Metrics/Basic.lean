import AgentBroker.Time
import Std.Data.ExtTreeMap

/-!
# Metrics

What the broker counts about its sessions, the envelopes it processes and its directory, and how
long the latest envelopes took. Counting never fails and never changes what the broker does.

The counters have 64 bits. As no run comes to `2 ^ 64` events, they are natural numbers here. Only
the sum of the latest times can be too large for 64 bits: whoever asks for it then makes the program
panic. It measures no more times after that, which is left out here.
-/

namespace AgentBroker

structure SessionCounts where
  accepted : Nat
  rejected : Nat
  handshakeFailures : Nat
  active : Nat
  /-- The largest number of active sessions behind any admission. -/
  maxActive : Nat
  disconnects : Nat
  deriving DecidableEq, Repr, Inhabited

structure RoutingCounts where
  envelopes : Nat
  decodeErrors : Nat
  routed : Nat
  failures : Nat
  protocolErrors : Nat
  deriving DecidableEq, Repr, Inhabited

structure DirectoryCounts where
  registrations : Nat
  unregistrations : Nat
  registrationErrors : Nat
  searches : Nat
  conversationsExpired : Nat
  deriving DecidableEq, Repr, Inhabited

structure OperationCount where
  count : Nat
  failures : Nat
  deriving DecidableEq, Repr, Inhabited

structure Metrics where
  sessions : SessionCounts
  routing : RoutingCounts
  directory : DirectoryCounts
  /-- The latest dispatch times in whole microseconds, oldest first. -/
  dispatchTimes : List UInt64
  operations : Std.ExtTreeMap String OperationCount

namespace Metrics

def empty : Metrics := ⟨⟨0, 0, 0, 0, 0, 0⟩, ⟨0, 0, 0, 0, 0⟩, ⟨0, 0, 0, 0, 0⟩, [], ∅⟩

instance : Inhabited Metrics := ⟨empty⟩

def sessionAdmitted (m : Metrics) : Metrics :=
  let active := m.sessions.active + 1
  { m with
    sessions.accepted := m.sessions.accepted + 1
    sessions.active := active
    sessions.maxActive := max m.sessions.maxActive active }

def sessionRejected (m : Metrics) : Metrics :=
  { m with sessions.rejected := m.sessions.rejected + 1 }

def handshakeFailed (m : Metrics) : Metrics :=
  { m with sessions.handshakeFailures := m.sessions.handshakeFailures + 1 }

/-- A session has ended. The active sessions never fall below zero. -/
def sessionClosed (m : Metrics) : Metrics :=
  { m with
    sessions.disconnects := m.sessions.disconnects + 1
    sessions.active := m.sessions.active - 1 }

def window : Nat := 1000

/-- A span in whole microseconds, at most what 64 bits hold. -/
def micros (elapsed : Nanos) : UInt64 := UInt64.ofNat (min (elapsed / 1000) (UInt64.size - 1))

def appendToWindow (times : List UInt64) (t : UInt64) : List UInt64 :=
  let times := times ++ [t]
  times.drop (times.length - window)

def countOperation (counts : Std.ExtTreeMap String OperationCount) (operation : String)
    (ok : Bool) : Std.ExtTreeMap String OperationCount :=
  let before := counts.getD operation ⟨0, 0⟩
  counts.insert operation ⟨before.count + 1, before.failures + if ok then 0 else 1⟩

def envelopeProcessed (m : Metrics) (operation : String) (elapsed : Nanos) (ok : Bool) : Metrics :=
  { m with
    routing.envelopes := m.routing.envelopes + 1
    dispatchTimes := appendToWindow m.dispatchTimes (micros elapsed)
    operations := countOperation m.operations operation ok }

def decodeError (m : Metrics) : Metrics :=
  { m with routing.decodeErrors := m.routing.decodeErrors + 1 }

def messageRouted (m : Metrics) : Metrics := { m with routing.routed := m.routing.routed + 1 }

def routingFailed (m : Metrics) : Metrics := { m with routing.failures := m.routing.failures + 1 }

def protocolError (m : Metrics) : Metrics :=
  { m with routing.protocolErrors := m.routing.protocolErrors + 1 }

def registration (m : Metrics) : Metrics :=
  { m with directory.registrations := m.directory.registrations + 1 }

def unregistration (m : Metrics) : Metrics :=
  { m with directory.unregistrations := m.directory.unregistrations + 1 }

def registrationFailed (m : Metrics) : Metrics :=
  { m with directory.registrationErrors := m.directory.registrationErrors + 1 }

def search (m : Metrics) : Metrics :=
  { m with directory.searches := m.directory.searches + 1 }

def conversationsExpired (m : Metrics) (count : Nat) : Metrics :=
  { m with directory.conversationsExpired := m.directory.conversationsExpired + count }

def sortedTimes (m : Metrics) : List UInt64 := m.dispatchTimes.mergeSort (· ≤ ·)

def add64? (a b : UInt64) : Option UInt64 :=
  if a.toNat + b.toNat < UInt64.size then some (a + b) else none

/-- The sum of times in 64 bits. There is none if it overflows: the program panics. -/
def sum64? (times : List UInt64) : Option UInt64 := times.foldlM add64? 0

/-- The mean, 0 without times. There is none where the program panics over the sum. -/
def mean? (times : List UInt64) : Option Float :=
  if times.isEmpty then some 0.0
  else (sum64? times).map fun sum => sum.toFloat / Float.ofNat times.length

/-- The value below which `percent` of the sorted times lie, between two neighbours in proportion;
0 without times. -/
def percentile (sorted : List UInt64) (percent : Float) : Float :=
  let value (index : Float) : Float := (sorted.getD index.toUInt64.toNat 0).toFloat
  let index := percent / 100.0 * Float.ofNat (sorted.length - 1)
  let fraction := index - index.floor
  if sorted.isEmpty then 0.0
  else if fraction == 0.0 then value index
  else
    let lower := value index.floor
    lower + (value index.ceil - lower) * fraction

end Metrics

end AgentBroker
