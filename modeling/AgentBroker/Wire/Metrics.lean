import AgentBroker.Metrics.Basic
import AgentBroker.Wire.Class

/-!
# The written form of metrics

A snapshot of all counts, with the mean and three percentiles of the dispatch times. Counts are
written modulo `2 ^ 64`. There is no snapshot when the sum of the dispatch times overflows, over which
the program panics.
-/

namespace AgentBroker

open Json

def counterJson (n : Nat) : Json := Json.ofNat (n % UInt64.size)

def SessionCounts.toJson (c : SessionCounts) : Json :=
  record [("connections_accepted", counterJson c.accepted),
    ("connections_rejected", counterJson c.rejected),
    ("handshake_failures", counterJson c.handshakeFailures),
    ("active_sessions", counterJson c.active),
    ("max_active_sessions", counterJson c.maxActive),
    ("disconnects", counterJson c.disconnects)]

def DirectoryCounts.toJson (c : DirectoryCounts) : Json :=
  record [("registrations", counterJson c.registrations),
    ("unregistrations", counterJson c.unregistrations),
    ("registration_errors", counterJson c.registrationErrors),
    ("searches", counterJson c.searches),
    ("conversations_expired", counterJson c.conversationsExpired)]

def OperationCount.toJson (name : String) (c : OperationCount) : Json :=
  record [("name", Json.ofString name), ("count", counterJson c.count),
    ("failures", counterJson c.failures)]

namespace Metrics

def timesJson? (m : Metrics) : Option (List (String × Json)) :=
  let sorted := m.sortedTimes
  (mean? sorted).map fun mean =>
    [("avg_dispatch_time_us", Json.ofFloat mean),
      ("dispatch_time_p50_us", Json.ofFloat (percentile sorted 50.0)),
      ("dispatch_time_p95_us", Json.ofFloat (percentile sorted 95.0)),
      ("dispatch_time_p99_us", Json.ofFloat (percentile sorted 99.0))]

def routingJson (m : Metrics) (times : List (String × Json)) : Json :=
  record ([("envelopes_processed", counterJson m.routing.envelopes),
      ("decode_errors", counterJson m.routing.decodeErrors),
      ("messages_routed", counterJson m.routing.routed),
      ("routing_failures", counterJson m.routing.failures),
      ("protocol_errors", counterJson m.routing.protocolErrors)] ++ times ++
    [("operations",
      record (m.operations.toList.map fun (name, c) => (name, c.toJson name)))])

/-- A snapshot. The dispatch times can be left out, but it is made with them. -/
def snapshotJson? (m : Metrics) (withTimes : Bool) : Option Json :=
  m.timesJson?.map fun times =>
    record [("sessions", m.sessions.toJson),
      ("routing", m.routingJson (if withTimes then times else [])),
      ("directory", m.directory.toJson)]

end Metrics

end AgentBroker
