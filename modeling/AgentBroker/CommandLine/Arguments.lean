/-!
# Arguments

What the arguments of the command line ask for. Options stand before the command; a command has
options of its own. Short options may stand together behind one hyphen, and a value may stand behind
its option, behind `=`, or in the next argument.
-/

namespace AgentBroker

inductive Job where
  | run
  /-- Checks the settings, and shows them if asked to. -/
  | config (shown : Bool)
  deriving DecidableEq, Repr

inductive HelpTopic where
  | program
  | run
  | config
  | help
  deriving DecidableEq, Repr

structure Invocation where
  configPath : Option String
  /-- How often more logging is asked for. -/
  verbosity : Nat
  job : Job
  deriving DecidableEq, Repr

inductive Intent where
  | work (i : Invocation)
  | help (topic : HelpTopic)
  | version
  /-- The arguments make no sense. -/
  | misuse
  deriving DecidableEq, Repr

namespace Arguments

inductive Shape where
  /-- Two hyphens alone. -/
  | escape
  /-- An option by its long name, perhaps with a value behind `=`. -/
  | long (name : String) (value : Option String)
  | short (flags : List Char)
  | word (s : String)

def shape (s : String) : Shape :=
  match s.toList with
  | ['-', '-'] => .escape
  | '-' :: '-' :: cs =>
    let name := String.ofList (cs.takeWhile (· != '='))
    match cs.dropWhile (· != '=') with
    | [] => .long name none
    | _ :: value => .long name (some (String.ofList value))
  | '-' :: c :: cs => .short (c :: cs)
  | _ => .word s

def run (i : Invocation) : List String → Intent
  | [] => .work { i with job := .run }
  | arg :: rest =>
    match shape arg with
    | .escape => if rest = [] then .work { i with job := .run } else .misuse
    | .long "help" none | .short ('h' :: _) => .help .run
    | _ => .misuse

def config (i : Invocation) (shown : Bool) : List String → Intent
  | [] => .work { i with job := .config shown }
  | arg :: rest =>
    match shape arg with
    | .escape => if rest = [] then .work { i with job := .config shown } else .misuse
    | .long "help" none | .short ('h' :: _) => .help .config
    | .long "show" none => if shown then .misuse else config i true rest
    | _ => .misuse

def help : List String → Intent
  | [] => .help .program
  | ["run"] => .help .run
  | ["config"] => .help .config
  | ["help"] => .help .help
  | _ => .misuse

def start : Invocation := ⟨none, 0, .run⟩

def withPath? (i : Invocation) (path : String) : Option Invocation :=
  if i.configPath.isSome ∨ path = "" then none else some { i with configPath := some path }

def moreLogging (i : Invocation) : Invocation := { i with verbosity := i.verbosity + 1 }

/-- What becomes of short options that stand together. -/
inductive Cluster where
  | done (i : Invocation)
  /-- The next argument is the path. -/
  | pathNext (i : Invocation)
  | over (intent : Intent)

def cluster (i : Invocation) : List Char → Cluster
  | [] => .done i
  | 'v' :: cs => cluster (moreLogging i) cs
  | 'h' :: _ => .over (.help .program)
  | 'V' :: _ => .over .version
  | ['c'] => .pathNext i
  | 'c' :: cs =>
    let path := match cs with
      | '=' :: cs => cs
      | cs => cs
    match withPath? i (String.ofList path) with
    | some i => .done i
    | none => .over .misuse
  | _ => .over .misuse

/-- Takes an argument of its own as the path, which must not look like an option. -/
def withNext? (i : Invocation) (arg : String) : Option Invocation :=
  match shape arg with
  | .word path => withPath? i path
  | _ => none

def read (i : Invocation) : List String → Intent
  | [] => .misuse
  | arg :: rest =>
    match shape arg with
    | .escape => .misuse
    | .word "run" => run i rest
    | .word "config" => config i false rest
    | .word "help" => help rest
    | .word _ => .misuse
    | .long "help" none => .help .program
    | .long "version" none => .version
    | .long "verbose" none => read (moreLogging i) rest
    | .long "config" (some path) =>
      match withPath? i path with
      | some i => read i rest
      | none => .misuse
    | .long "config" none =>
      match rest with
      | [] => .misuse
      | path :: rest =>
        match withNext? i path with
        | some i => read i rest
        | none => .misuse
    | .long .. => .misuse
    | .short flags =>
      match cluster i flags, rest with
      | .done i, rest => read i rest
      | .over intent, _ => intent
      | .pathNext _, [] => .misuse
      | .pathNext i, path :: rest =>
        match withNext? i path with
        | some i => read i rest
        | none => .misuse

end Arguments

/-- What the arguments ask for, with a path for the settings that stands in for one that they do not
name. An empty path is none. -/
def Intent.ofArguments (path : Option String) (args : List String) : Intent :=
  match Arguments.read Arguments.start args with
  | .work i =>
    match i.configPath, path with
    | none, some "" => .misuse
    | none, some path => .work { i with configPath := some path }
    | _, _ => .work i
  | intent => intent

end AgentBroker
