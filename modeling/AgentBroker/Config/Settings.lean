import AgentBroker.Frame
import AgentBroker.Time

/-!
# Settings

How the broker is set up, and how an agent reaches it. Every setting of the broker has a default.
-/

namespace AgentBroker

structure ListenerSettings where
  host : String
  port : UInt16
  /-- The deadline of the whole handshake. -/
  handshakeTimeoutMs : UInt64
  /-- The largest frame body that is accepted. -/
  maxFrameBytes : UInt64
  deriving DecidableEq, Repr

/-- Which failures are told to the agent that caused them. -/
structure NotificationSettings where
  /-- A message could not reach its destination. -/
  routingErrors : Bool
  /-- A negotiation message broke the rules. -/
  protocolErrors : Bool
  deriving DecidableEq, Repr

/-- When idle negotiations are dropped; never without a timeout. -/
structure ExpirySettings where
  idleTimeoutSecs : Option UInt64
  sweepIntervalSecs : UInt64
  deriving DecidableEq, Repr

structure HealthSettings where
  enabled : Bool
  port : UInt16
  deriving DecidableEq, Repr

structure Settings where
  listener : ListenerSettings
  notifications : NotificationSettings
  expiry : ExpirySettings
  health : HealthSettings
  deriving DecidableEq, Repr

structure ClientSettings where
  /-- `tcp://host:port` -/
  url : String
  publicKey : String
  handshakeTimeoutMs : UInt64
  deriving DecidableEq, Repr, Inhabited

def defaultHandshakeTimeoutMs : UInt64 := 5000

instance : Inhabited ListenerSettings :=
  ⟨{ host := "127.0.0.1", port := 10000, handshakeTimeoutMs := defaultHandshakeTimeoutMs,
     maxFrameBytes := UInt64.ofNat Frame.defaultMax }⟩

instance : Inhabited NotificationSettings := ⟨{ routingErrors := true, protocolErrors := false }⟩

instance : Inhabited ExpirySettings := ⟨{ idleTimeoutSecs := none, sweepIntervalSecs := 30 }⟩

instance : Inhabited HealthSettings := ⟨{ enabled := false, port := 8080 }⟩

instance : Inhabited Settings := ⟨⟨default, default, default, default⟩⟩

namespace ExpirySettings

def idleTimeout (s : ExpirySettings) : Option Nanos :=
  s.idleTimeoutSecs.map fun n => Nanos.ofSeconds n.toNat

def sweepInterval (s : ExpirySettings) : Nanos := Nanos.ofSeconds s.sweepIntervalSecs.toNat

end ExpirySettings

def Settings.handshakeTimeout (s : Settings) : Nanos :=
  Nanos.ofMillis s.listener.handshakeTimeoutMs.toNat

def ClientSettings.handshakeTimeout (s : ClientSettings) : Nanos :=
  Nanos.ofMillis s.handshakeTimeoutMs.toNat

end AgentBroker
