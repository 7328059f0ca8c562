import AgentBroker.Config.Check
import AgentBroker.Toml.Document

/-!
# Settings as a document

The settings of the broker are read from a TOML document with one table a section, and written as
one. Sections and settings that are missing have their defaults, unknown ones are skipped. A section
may also be the array of its settings in order.
-/

namespace AgentBroker

namespace Toml

def section? (keys : List String) : Toml → Option (List (Option Toml))
  | table _ members => some (keys.map (List.lookup · members))
  | array items => some ((List.range keys.length).map (items[·]?))
  | tables items => some ((List.range keys.length).map fun k => (items[k]?).map (.table .header))
  | moment => some (keys.map fun _ => none)
  | _ => none

def string? : Toml → Option String
  | string s => some s
  | _ => none

def bool? : Toml → Option Bool
  | bool b => some b
  | _ => none

def natBelow? (bound : Nat) : Toml → Option Nat
  | integer i => if 0 ≤ i ∧ i < bound then some i.toNat else none
  | _ => none

def uint16? (v : Toml) : Option UInt16 := (v.natBelow? UInt16.size).map UInt16.ofNat
def uint64? (v : Toml) : Option UInt64 := (v.natBelow? UInt64.size).map UInt64.ofNat

def settingOr? {α : Type} (read : Toml → Option α) (default : α) : Option Toml → Option α
  | none => some default
  | some v => read v

end Toml

open Toml

def ListenerSettings.ofToml? (v : Toml) : Option ListenerSettings := do
  let [host, port, timeout, maxFrame] ←
    v.section? ["host", "port", "handshake_timeout_ms", "max_frame_bytes"] | none
  let d : ListenerSettings := default
  return ⟨← settingOr? string? d.host host, ← settingOr? uint16? d.port port,
    ← settingOr? uint64? d.handshakeTimeoutMs timeout,
    ← settingOr? uint64? d.maxFrameBytes maxFrame⟩

def NotificationSettings.ofToml? (v : Toml) : Option NotificationSettings := do
  let [routing, protocol] ← v.section? ["routing_errors", "protocol_errors"] | none
  let d : NotificationSettings := default
  return ⟨← settingOr? bool? d.routingErrors routing, ← settingOr? bool? d.protocolErrors protocol⟩

def ExpirySettings.ofToml? (v : Toml) : Option ExpirySettings := do
  let [timeout, interval] ← v.section? ["idle_timeout_secs", "sweep_interval_secs"] | none
  let d : ExpirySettings := default
  return ⟨← settingOr? (fun v => v.uint64?.map some) none timeout,
    ← settingOr? uint64? d.sweepIntervalSecs interval⟩

def HealthSettings.ofToml? (v : Toml) : Option HealthSettings := do
  let [enabled, port] ← v.section? ["enabled", "port"] | none
  let d : HealthSettings := default
  return ⟨← settingOr? bool? d.enabled enabled, ← settingOr? uint16? d.port port⟩

namespace Settings

def ofToml? (v : Toml) : Option Settings := do
  let [listener, notifications, expiry, health] ←
    v.section? ["broker", "notifications", "conversations", "health"] | none
  return ⟨← settingOr? ListenerSettings.ofToml? default listener,
    ← settingOr? NotificationSettings.ofToml? default notifications,
    ← settingOr? ExpirySettings.ofToml? default expiry,
    ← settingOr? HealthSettings.ofToml? default health⟩

def parse (text : String) : Except ConfigProblem Settings :=
  match (Toml.parse? text).bind ofToml? with
  | none => .error .malformed
  | some s => s.validate.map fun _ => s

def settingLine (key value : String) : String := key ++ " = " ++ value ++ "\n"

def boolText (b : Bool) : String := if b then "true" else "false"

/-- A number, which must fit 64 bits with a sign. -/
def numberText? (n : UInt64) : Option String :=
  if n.toNat ≤ Int64.maxValue.toInt.toNat then some (toString n.toNat) else none

/-- The document of the settings. There is none with a number that is too large. -/
def print? (s : Settings) : Option String := do
  let idle ← match s.expiry.idleTimeoutSecs with
    | none => some ""
    | some n => (numberText? n).map (settingLine "idle_timeout_secs")
  return "[broker]\n" ++
    settingLine "host" (String.ofList (quote s.listener.host.toList)) ++
    settingLine "port" (toString s.listener.port.toNat) ++
    settingLine "handshake_timeout_ms" (← numberText? s.listener.handshakeTimeoutMs) ++
    settingLine "max_frame_bytes" (← numberText? s.listener.maxFrameBytes) ++
    "\n[notifications]\n" ++
    settingLine "routing_errors" (boolText s.notifications.routingErrors) ++
    settingLine "protocol_errors" (boolText s.notifications.protocolErrors) ++
    "\n[conversations]\n" ++ idle ++
    settingLine "sweep_interval_secs" (← numberText? s.expiry.sweepIntervalSecs) ++
    "\n[health]\n" ++
    settingLine "enabled" (boolText s.health.enabled) ++
    settingLine "port" (toString s.health.port.toNat)

def print (s : Settings) : Except ConfigProblem String :=
  match s.print? with
  | some text => .ok text
  | none => .error .unprintable

end Settings

end AgentBroker
