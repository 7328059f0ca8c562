import AgentBroker.CommandLine.Session
import AgentBroker.Connection.Service
import AgentBroker.Health
import AgentBroker.Logging.Line
import AgentBroker.Text.Hex
import Std.Async.Signal
import Std.Async.TCP
import Std.Async.Timer
import Std.Sync.Mutex

/-!
# The program

Carries out what the library decides: reads the environment and files, prints, and moves bytes
between sockets and the service.
-/

namespace AgentBroker.Main

open Std.Async Std.Net

def environmentNames : List String :=
  ["OEF_CONFIG", "LOG_LEVEL", "LOG_FORMAT", "LOG_SPANS", "RUST_LOG"]

def environmentVariables : IO (List (String × String)) :=
  environmentNames.filterMapM fun name => do return (← IO.getEnv name).map (name, ·)

def readFile (path : String) : IO (Except FileFlaw String) := do
  try
    let bytes ← IO.FS.readBinFile path
    return match String.fromUTF8? bytes with
      | some text => .ok text
      | none => .error .notText
  catch
    | .inappropriateType .. => return .error .isDirectory
    | _ => return .error .missing

def surroundings (vars : List (String × String)) (given : Option String) : IO Surroundings := do
  let paths := given.toList ++ Session.defaultPaths
  let found ← paths.mapM fun path => do return (path, ← readFile path)
  return {
    environment? := fun name => vars.lookup name
    readFile := fun path => (found.lookup path).getD (.error .missing)
    complaint? := fun _ => none
    signal := .terminate }

def showEvents (settings : LogSettings) (events : List LogEvent) : IO Unit := do
  let filter := LogFilter.parse settings.directives
  for e in events do
    if filter.shows e then IO.println (e.line settings.format)
  (← IO.getStdout).flush

abbrev Client := TCP.Socket.Client

structure Station where
  service : Service
  clients : List (ConnectionId × Client)

abbrev Shared := Std.Mutex Station

/-- Something happens to the service, which may ask for something to be done. -/
partial def happen (shared : Shared) (f : Service → Service × List Effect) : Async Unit := do
  let (effects, clients) ← shared.atomically do
    let s ← get
    let (service, effects) := f s.service
    let gone := effects.filterMap fun
      | .close id => some id
      | .send .. => none
    set { service, clients := s.clients.filter fun (id, _) => !gone.contains id : Station }
    return (effects, s.clients)
  for e in effects do
    match e with
    | .send id bytes =>
      if let some client := clients.lookup id then
        background do
          let ok ← try client.send bytes.toByteArray; pure true catch _ => pure false
          happen shared (·.wrote id ok)
    | .close id =>
      if let some client := clients.lookup id then
        background do
          try client.shutdown catch _ => pure ()

/-- Reads from a socket until it ends. -/
partial def readAll (shared : Shared) (id : ConnectionId) (client : Client) : Async Unit := do
  let chunk ← try client.recv? 65536 catch _ => pure none
  match chunk with
  | some bytes =>
    happen shared (·.received id bytes.toList)
    readAll shared id client
  | none => happen shared (·.hungUp id)

/-- Accepts connections for ever. -/
partial def acceptAll (shared : Shared) (server : TCP.Socket.Server) : Async Unit := do
  let client ← server.accept
  let phrase ← IO.getRandomBytes 16
  let id ← shared.atomically do
    let s ← get
    let (id, service) := s.service.accept (hexText phrase.toList)
    set { service, clients := (id, client) :: s.clients : Station }
    return id
  background (readAll shared id client)
  acceptAll shared server

/-- Tells the service the time again and again. -/
partial def tickAll (shared : Shared) (origin : Nat) : Async Unit := do
  sleep 50
  let now ← IO.monoNanosNow
  happen shared (·.tick (now - origin))
  tickAll shared origin

/-- Answers requests about the health of the broker for ever. -/
partial def watchAll (shared : Shared) (address : String) (server : TCP.Socket.Server) :
    Async Unit := do
  let client ← server.accept
  background do
    try
      let request ← client.recv? 65536
      let text := (request.bind (String.fromUTF8? ·)).getD ""
      let s ← shared.atomically get
      if let some answer := Health.answerText address s.service.timeline text then
        client.send answer.toUTF8
      client.shutdown
    catch _ => pure ()
  watchAll shared address server

def toStd : AgentBroker.SocketAddress → Std.Net.SocketAddress
  | .v4 ip port => .v4 ⟨.ofParts ip.a ip.b ip.c ip.d, port⟩
  | .v6 ip _ port => .v6 ⟨⟨ip.groups⟩, port⟩

def listenOn (address : Std.Net.SocketAddress) : IO TCP.Socket.Server := do
  let server ← TCP.Socket.Server.mk
  server.bind address
  server.listen 128
  server.noDelay
  return server

def awaitSignal : Async StopSignal := do
  let interrupt ← Signal.Waiter.mk .sigint false
  let terminate ← Signal.Waiter.mk .sigterm false
  Selectable.one #[
    .case interrupt.selector fun _ => pure .interrupt,
    .case terminate.selector fun _ => pure .terminate]

def serve (s : Settings) (address : AgentBroker.SocketAddress) (tell : List LogEvent → IO Unit) :
    Async Unit := do
  let server ← listenOn (toStd address)
  let shared ← Std.Mutex.new (Station.mk (.start s) [])
  background (acceptAll shared server)
  background (tickAll shared (← IO.monoNanosNow))
  if s.health.enabled then
    let health ← listenOn (.v4 ⟨.ofParts 0 0 0 0, s.health.port⟩)
    background (watchAll shared address.text health)
  tell (Session.listening s)
  let signal ← awaitSignal
  happen shared Service.stop
  tell (Session.stopping signal)

def runBroker (i : Invocation) (around : Surroundings) : IO UInt32 := do
  let tell := showEvents (Session.logSettings i around.environment?)
  let (events, settings) := Session.opening around.readFile i.configPath
  tell events
  match settings with
  | .error p =>
    tell [Session.loadFailure p]
    return 1
  | .ok s =>
    match s.listenAddress with
    | .error p =>
      tell [Session.jobFailure (Failure.config p).message]
      return 1
    | .ok address =>
      try
        (serve s address tell).block
        tell [Session.closing]
        return 0
      catch e =>
        tell [Session.jobFailure (Session.bindFailure (toString e))]
        return 1

end AgentBroker.Main

open AgentBroker in
def main (args : List String) : IO UInt32 := do
  let vars ← Main.environmentVariables
  match Intent.ofArguments (vars.lookup "OEF_CONFIG") args with
  | .work i =>
    let around ← Main.surroundings vars i.configPath
    match i.job with
    | .run => Main.runBroker i around
    | .config _ =>
      let o := runSession args around
      IO.print o.stdout
      Main.showEvents (Session.logSettings i around.environment?) o.log
      return o.code.toUInt32
  | .misuse =>
    IO.eprint (HelpTopic.program.text (vars.lookup "OEF_CONFIG"))
    return 2
  | .help topic =>
    IO.print (topic.text (vars.lookup "OEF_CONFIG"))
    return 0
  | .version =>
    IO.print versionText
    return 0
