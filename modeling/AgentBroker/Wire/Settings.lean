import AgentBroker.Config.Settings
import AgentBroker.Wire.Class

/-!
# The written form of settings

Every member has its default, so the empty record stands for the default settings. An idle timeout
that is not set is left out.
-/

namespace AgentBroker

open Json

instance : Wire ListenerSettings where
  toJson s :=
    record [("host", toJson s.host), ("port", toJson s.port),
      ("handshake_timeout_ms", toJson s.handshakeTimeoutMs),
      ("max_frame_bytes", toJson s.maxFrameBytes)]
  ofJson? j := do
    let [host, port, timeout, maxFrame] ←
      j.record? ["host", "port", "handshake_timeout_ms", "max_frame_bytes"] | none
    let d : ListenerSettings := default
    return ⟨← fieldOr? d.host host, ← fieldOr? d.port port,
      ← fieldOr? d.handshakeTimeoutMs timeout, ← fieldOr? d.maxFrameBytes maxFrame⟩

instance : Wire NotificationSettings where
  toJson s :=
    record [("routing_errors", toJson s.routingErrors),
      ("protocol_errors", toJson s.protocolErrors)]
  ofJson? j := do
    let [routing, protocol] ← j.record? ["routing_errors", "protocol_errors"] | none
    let d : NotificationSettings := default
    return ⟨← fieldOr? d.routingErrors routing, ← fieldOr? d.protocolErrors protocol⟩

instance : Wire ExpirySettings where
  toJson s :=
    record ((match s.idleTimeoutSecs with
        | none => []
        | some n => [("idle_timeout_secs", toJson n)]) ++
      [("sweep_interval_secs", toJson s.sweepIntervalSecs)])
  ofJson? j := do
    let [timeout, interval] ← j.record? ["idle_timeout_secs", "sweep_interval_secs"] | none
    let d : ExpirySettings := default
    return ⟨← optionalField? timeout, ← fieldOr? d.sweepIntervalSecs interval⟩

instance : Wire HealthSettings where
  toJson s := record [("enabled", toJson s.enabled), ("port", toJson s.port)]
  ofJson? j := do
    let [enabled, port] ← j.record? ["enabled", "port"] | none
    let d : HealthSettings := default
    return ⟨← fieldOr? d.enabled enabled, ← fieldOr? d.port port⟩

instance : Wire Settings where
  toJson s :=
    record [("broker", toJson s.listener), ("notifications", toJson s.notifications),
      ("conversations", toJson s.expiry), ("health", toJson s.health)]
  ofJson? j := do
    let [listener, notifications, expiry, health] ←
      j.record? ["broker", "notifications", "conversations", "health"] | none
    return ⟨← fieldOr? default listener, ← fieldOr? default notifications,
      ← fieldOr? default expiry, ← fieldOr? default health⟩

instance : Wire ClientSettings where
  toJson s :=
    record [("broker_url", toJson s.url), ("public_key", toJson s.publicKey),
      ("handshake_timeout_ms", toJson s.handshakeTimeoutMs)]
  ofJson? j := do
    let [url, publicKey, timeout] ←
      j.record? ["broker_url", "public_key", "handshake_timeout_ms"] | none
    return ⟨← field? url, ← field? publicKey, ← fieldOr? defaultHandshakeTimeoutMs timeout⟩

end AgentBroker
