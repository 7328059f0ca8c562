import AgentBroker.Agent.Numbering
import AgentBroker.Config.Check
import AgentBroker.Failure
import AgentBroker.Wire.Message

/-!
# Agents on the network

Such an agent reaches the broker by a stream, whose two directions are used apart: one is read by
whoever runs the agent, the other is written by whoever sends.
-/

namespace AgentBroker

structure RemoteAccess where
  settings : ClientSettings
  maxFrame : Nat
  numbering : Numbering
  /-- The stream can be read, and nobody has begun to. -/
  canRead : Bool
  canWrite : Bool

namespace RemoteAccess

def start (settings : ClientSettings) (maxFrame : Nat) : RemoteAccess :=
  ⟨settings, maxFrame, .start, false, false⟩

/-- Asks to be admitted: `dial` opens the stream to an address and goes through the exchange. -/
def handshake (a : RemoteAccess) (dial : String → Except Failure Unit) :
    Except Failure Unit × RemoteAccess :=
  match a.settings.validate.bind fun _ => a.settings.brokerAddress with
  | .error p => (.error (.config p), a)
  | .ok address =>
    match dial address with
    | .error f => (.error f, a)
    | .ok _ => (.ok (), { a with canRead := true, canWrite := true })

def takeReader (a : RemoteAccess) : Except Failure Unit × RemoteAccess :=
  if a.canRead then (.ok (), { a with canRead := false }) else (.error (.wire .closed), a)

/-- The notices on a stream that ends behind these bytes, and how the reading ends. Frames that hold
no notice are passed over. -/
def notices (maxFrame : Nat) (bytes : Bytes) : List Notice × Except Failure Unit :=
  match Frame.readAll maxFrame bytes with
  | (bodies, .closed) => (bodies.filterMap Wire.decode?, .ok ())
  | (bodies, e) => (bodies.filterMap Wire.decode?, .error (.wire e))

def send (a : RemoteAccess) (e : Envelope) : Except Failure Bytes × RemoteAccess :=
  let (e, numbering) := a.numbering.stamp e
  let bytes := if a.canWrite then Frame.write? a.maxFrame (Wire.encode e) else .error .closed
  (bytes.mapError .wire, { a with numbering })

def stop (a : RemoteAccess) : RemoteAccess := { a with canWrite := false }

end RemoteAccess

end AgentBroker
