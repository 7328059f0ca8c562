import AgentBroker.CommandLine.Help
import AgentBroker.Config.Document
import AgentBroker.Failure
import AgentBroker.Logging.Filter

/-!
# Sessions of the command line

What the program prints and logs from its arguments to its end, and the code that it ends with. A
broker runs until a signal comes.
-/

namespace AgentBroker

inductive StopSignal where
  | interrupt
  | terminate
  deriving DecidableEq, Repr

def StopSignal.label : StopSignal → String
  | interrupt => "SIGINT"
  | terminate => "SIGTERM"

structure Surroundings where
  environment? : String → Option String
  readFile : String → Except FileFlaw String
  /-- The system's complaint about an address that nobody can listen on. -/
  complaint? : SocketAddress → Option String
  signal : StopSignal

structure Outcome where
  code : Nat
  stdout : String
  /-- The events that are shown, oldest first. -/
  log : List LogEvent

namespace Session

def own (level : LogLevel) (message : String) : LogEvent := ⟨level, LogSettings.ownTarget, message⟩

def part (name message : String) : LogEvent :=
  ⟨.info, LogSettings.ownTarget ++ "::" ++ name, message⟩

def defaultPaths : List String := ["oef.toml", "config/oef.toml"]

def isThere (readFile : String → Except FileFlaw String) (path : String) : Bool :=
  match readFile path with
  | .ok _ | .error .isDirectory | .error .notText => true
  | _ => false

def path? (readFile : String → Except FileFlaw String) (given : Option String) : Option String :=
  given <|> defaultPaths.find? (isThere readFile)

/-- The first events of a session, and the settings that it loads. -/
def opening (readFile : String → Except FileFlaw String) (given : Option String) :
    List LogEvent × Except ConfigProblem Settings :=
  let first := own .info ("Starting " ++ programName ++ " v" ++ programVersion)
  match path? readFile given with
  | some path =>
    ([first, own .info ("Loading configuration from: " ++ path)],
      ((readFile path).mapError .unreadable).bind Settings.parse)
  | none => ([first, own .info "No configuration file found, using defaults"], .ok default)

def loadFailure (p : ConfigProblem) : LogEvent :=
  own .error ("Failed to load configuration: " ++ p.message)

def jobFailure (message : String) : LogEvent := own .error ("Command failed: " ++ message)

def bindFailure (complaint : String) : String := Failure.io.message ++ ": " ++ complaint

def closing : LogEvent := own .info "Application shutdown complete"

def listening (s : Settings) : List LogEvent :=
  [part "server" "Broker listening", part "scheduler" "Scheduler worker started"] ++
    (if s.health.enabled then [part "observability::health" "Starting health server"] else []) ++
    [own .info "Broker is accepting agents"]

def stopping (signal : StopSignal) : List LogEvent :=
  [own .info ("Received " ++ signal.label ++ ", shutting down gracefully..."),
    part "server" "Shutdown requested, no longer accepting connections",
    part "scheduler" "Scheduler worker stopped", part "server" "Broker stopped",
    own .info "Final broker statistics"]

/-- The events of a broker that runs until a signal comes, or why it cannot run. -/
def serve (s : Settings) (around : Surroundings) : Except String (List LogEvent) :=
  match s.listenAddress with
  | .error p => .error (Failure.config p).message
  | .ok address =>
    match around.complaint? address with
    | some complaint => .error (bindFailure complaint)
    | none => .ok (listening s ++ stopping around.signal)

def perform (s : Settings) (around : Surroundings) : Job → Except String (String × List LogEvent)
  | .run => (serve s around).map fun events => ("", events)
  | .config shown => do
    let text ← if shown then ((s.print).mapError (·.message)).map (· ++ "\n") else .ok ""
    return (text, [own .info "Configuration validation complete"])

def work (i : Invocation) (around : Surroundings) : Outcome :=
  match opening around.readFile i.configPath with
  | (events, .error p) => ⟨1, "", events ++ [loadFailure p]⟩
  | (events, .ok s) =>
    match perform s around i.job with
    | .error message => ⟨1, "", events ++ [jobFailure message]⟩
    | .ok (stdout, more) => ⟨0, stdout, events ++ more ++ [closing]⟩

def logSettings (i : Invocation) (environment? : String → Option String) : LogSettings :=
  (LogSettings.ofEnvironment environment?).withVerbosity i.verbosity

end Session

def runSession (args : List String) (around : Surroundings) : Outcome :=
  let path := around.environment? "OEF_CONFIG"
  match Intent.ofArguments path args with
  | .work i =>
    let o := Session.work i around
    let filter := LogFilter.parse (Session.logSettings i around.environment?).directives
    { o with log := o.log.filter filter.shows }
  | .help topic => ⟨0, topic.text path, []⟩
  | .version => ⟨0, versionText, []⟩
  | .misuse => ⟨2, "", []⟩

end AgentBroker
