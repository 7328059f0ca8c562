import AgentBroker.Broker.Timeline
import AgentBroker.Wire.Metrics
import AgentBroker.Wire.Report

/-!
# Health

What a broker answers to those who watch over it: whether its worker answers, what it has counted,
and who is connected. A route is the first segment of a path, and only `GET` is allowed on it.
-/

namespace AgentBroker

structure HealthResponse where
  status : Nat
  /-- None where there is nothing to say in JSON. -/
  body : Option Json

namespace Health

open Json

inductive Route where
  | health
  | metrics
  | sessions
  | ready
  | live
  /-- The list of all others. -/
  | root
  deriving DecidableEq, Repr

namespace Route

def named : List (String × Route) :=
  [("health", health), ("metrics", metrics), ("sessions", sessions), ("ready", ready),
    ("live", live)]

/-- A path without what stands behind `?` or `#`. -/
def bare (path : List Char) : List Char := path.takeWhile fun c => c != '?' && c != '#'

def ofPath? (path : String) : Option Route :=
  match bare path.toList with
  | '/' :: [] => some root
  | '/' :: rest => named.lookup (String.ofList (rest.takeWhile (· != '/')))
  | _ => none

end Route

def endpoints : Json :=
  record [("/health", .ofString "Broker status with session and directory counts"),
    ("/metrics", .ofString "Session, routing and directory metrics"),
    ("/sessions", .ofString "Connected agents and when they connected"),
    ("/ready", .ofString "Readiness probe"), ("/live", .ofString "Liveness probe")]

def unavailableUnless (ok : Bool) : Nat := if ok then 200 else 503

def probe? (t : Timeline) : Option BrokerStats :=
  match t.request .stats with
  | (.stats s, _) => some s
  | _ => none

def status (ok : Bool) : Json := .ofString (if ok then "healthy" else "unhealthy")

def healthJson (address : String) (stats : Option BrokerStats) : Json :=
  let ok := stats.isSome
  let message := if ok then "Scheduler is processing commands"
    else "Scheduler stopped or not responding"
  let check := record [("status", status ok), ("message", .ofString message)]
  record ([("status", status ok), ("broker", .ofString address)] ++
    stats.toList.map (fun s => ("stats", report s)) ++ [("checks", record [("scheduler", check)])])

def sessionsJson (agents : List String) : Json :=
  record [("count", report agents.length),
    ("sessions", .array (agents.map fun a => record [("agent_id", .ofString a)]))]

/-- The answer of a route. The state of the broker is told with the help of a snapshot of its
metrics; where there is none the program panics, and the connection ends without an answer. -/
def answer (address : String) (t : Timeline) : Route → Option HealthResponse
  | .health => do
    let _ ← t.broker.metrics.snapshotJson? false
    let stats := probe? t
    return ⟨unavailableUnless stats.isSome, healthJson address stats⟩
  | .metrics => do return ⟨200, ← t.broker.metrics.snapshotJson? false⟩
  | .sessions =>
    match t.request .sessions with
    | (.sessions agents, _) => some ⟨200, sessionsJson agents⟩
    | _ => some ⟨503, sessionsJson []⟩
  | .ready =>
    let ok := (probe? t).isSome
    some ⟨unavailableUnless ok, record [("ready", .bool ok)]⟩
  | .live => some ⟨200, record [("alive", .bool true)]⟩
  | .root => some ⟨200, record [("endpoints", endpoints)]⟩

def respond (address : String) (t : Timeline) (method path : String) : Option HealthResponse :=
  match Route.ofPath? path with
  | none => some ⟨404, none⟩
  | some r => if method = "GET" then answer address t r else some ⟨405, none⟩

def reason : Nat → String
  | 200 => "OK"
  | 404 => "Not Found"
  | 405 => "Method Not Allowed"
  | _ => "Service Unavailable"

def text (r : HealthResponse) : String :=
  let body := (r.body.map Json.print).getD ""
  "HTTP/1.1 " ++ toString r.status ++ " " ++ reason r.status ++ "\r\n" ++
    "content-type: application/json\r\ncontent-length: " ++ toString body.utf8ByteSize ++
    "\r\nconnection: close\r\n\r\n" ++ body

def answerText (address : String) (t : Timeline) (request : String) : Option String :=
  match request.splitOn " " with
  | method :: path :: _ => (respond address t method path).map text
  | _ => some (text ⟨404, none⟩)

end Health

end AgentBroker
