import AgentBroker.CommandLine.Arguments

/-!
# Help

What the program prints about itself.
-/

namespace AgentBroker

def programName : String := "oef-core"

def programVersion : String := "0.1.0"

def versionText : String := programName ++ " " ++ programVersion ++ "\n"

namespace HelpTopic

def lines (ls : List String) : String := String.join (ls.map (· ++ "\n"))

/-- The help about a topic. That about the program shows the variable that stands in for the path of
the settings. -/
def text (path : Option String) : HelpTopic → String
  | program => lines [
      "Agent communication broker with service discovery and FIPA negotiation",
      "",
      "Usage: " ++ programName ++ " [OPTIONS] <COMMAND>",
      "",
      "Commands:",
      "  run     Run the broker until SIGINT or SIGTERM",
      "  config  Validate configuration",
      "  help    Print this message or the help of the given subcommand(s)",
      "",
      "Options:",
      "  -c, --config <FILE>  Configuration file path [env: OEF_CONFIG=" ++ path.getD "" ++ "]",
      "  -v, --verbose...     Verbose logging (-v debug, -vv trace)",
      "  -h, --help           Print help",
      "  -V, --version        Print version"]
  | run => lines [
      "Run the broker until SIGINT or SIGTERM",
      "",
      "Usage: " ++ programName ++ " run",
      "",
      "Options:",
      "  -h, --help  Print help"]
  | config => lines [
      "Validate configuration",
      "",
      "Usage: " ++ programName ++ " config [OPTIONS]",
      "",
      "Options:",
      "      --show  Print the effective configuration",
      "  -h, --help  Print help"]
  | help => lines [
      "Print this message or the help of the given subcommand(s)",
      "",
      "Usage: " ++ programName ++ " help [COMMAND]...",
      "",
      "Arguments:",
      "  [COMMAND]...  Print help for the subcommand(s)"]

end HelpTopic

end AgentBroker
