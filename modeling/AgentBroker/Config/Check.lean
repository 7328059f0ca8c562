import AgentBroker.Config.Problem
import AgentBroker.Config.Settings
import AgentBroker.Net.SocketAddress

/-!
# Checking settings

Which settings make sense, and the addresses that they name.
-/

namespace AgentBroker

namespace Settings

/-- The first setting, in the order of the sections, that makes no sense. -/
def flaw? (s : Settings) : Option SettingsFlaw :=
  if isBlankText s.listener.host then some .emptyHost
  else if s.listener.handshakeTimeoutMs = 0 then some .zeroHandshakeTimeout
  else if s.listener.maxFrameBytes = 0 then some .zeroMaxFrame
  else if s.expiry.idleTimeoutSecs = some 0 then some .zeroIdleTimeout
  else if s.expiry.sweepIntervalSecs = 0 then some .zeroSweepInterval
  else if s.health.enabled ∧ s.health.port = 0 then some .zeroHealthPort
  else none

def validate (s : Settings) : Except ConfigProblem Unit :=
  match s.flaw? with
  | some flaw => .error (.invalid flaw)
  | none => .ok ()

def listenAddress (s : Settings) : Except ConfigProblem SocketAddress :=
  match SocketAddress.parse? (s.listener.host ++ ":" ++ toString s.listener.port.toNat) with
  | some address => .ok address
  | none => .error (.invalid .badAddress)

end Settings

namespace ClientSettings

def brokerAddress (s : ClientSettings) : Except ConfigProblem String :=
  let flaw (f : UrlFlaw) : Except ConfigProblem String := .error (.badUrl s.url f)
  match Url.parse s.url with
  | .error e => flaw (.malformed e)
  | .ok url =>
    if url.scheme ≠ "tcp" then flaw .wrongScheme
    else
      match url.host, url.port with
      | none, _ => flaw .missingHost
      | some _, none => flaw .missingPort
      | some host, some port => .ok (host ++ ":" ++ toString port.toNat)

/-- Checks the agent id, then the URL. -/
def validate (s : ClientSettings) : Except ConfigProblem Unit := do
  validateAgentId s.publicKey
  discard s.brokerAddress

end ClientSettings

end AgentBroker
