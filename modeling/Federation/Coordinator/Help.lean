import Federation.Coordinator.Arguments
/-!
# Help about the coordinator

A call may ask for help, or for the version, instead of a command. Such a question is answered as soon
as it is met, even if the rest of the call is not valid.
-/

namespace Federation.Coordinator

inductive Topic where
  | coordinator
  | check
  | inspect
  deriving DecidableEq

inductive Question where
  | help (topic : Topic)
  | version (topic : Topic)
  deriving DecidableEq

def Topic.named : List (String × Topic) := [("check", .check), ("inspect", .inspect)]

def Topic.question? (t : Topic) (arg : String) : Option Question :=
  if arg = "--help" ∨ arg.startsWith "-h" then some (.help t)
  else if arg = "--version" ∨ arg.startsWith "-V" then some (.version t)
  else none

def Topic.asked? (t : Topic) (args : List String) : Option Question :=
  let rest := match t, args with
    | .inspect, "--experiment" :: value :: rest => if isOption value then value :: rest else rest
    | .inspect, arg :: rest => if arg.startsWith "--experiment=" then rest else args
    | _, args => args
  rest.head?.bind t.question?

/-- The question that a call puts, and whether the call names a configuration before. -/
def Question.ofArgs? (configured : Bool) : List String → Option (Question × Bool)
  | [] => none
  | "help" :: [] => some (.help .coordinator, configured)
  | "help" :: name :: _ => (Topic.named.lookup name).map fun t => (.help t, configured)
  | "-c" :: value :: rest =>
    if isOption value then ofArgs? configured (value :: rest) else ofArgs? true rest
  | arg :: rest =>
    match Topic.coordinator.question? arg, Topic.named.lookup arg with
    | some q, _ => some (q, configured)
    | none, some t => (t.asked? rest).map (·, configured)
    | none, none => if arg.startsWith "-c" && arg != "-c" then ofArgs? true rest else none

def Topic.title : Topic → String
  | coordinator => "Coordinator 0.1.0"
  | check => "coordinator-check 0.1.0"
  | inspect => "coordinator-inspect 0.1.0"

def Topic.about : Topic → List String
  | coordinator => []
  | check => ["Loads and validates the settings"]
  | inspect => ["Prints a summary of the latest checkpoint of an experiment"]

/-- How to call the coordinator. A configuration that was already named is not asked for. -/
def Topic.usage (t : Topic) (configured : Bool) : String :=
  let call := if configured then "coordinator" else "coordinator -c <config-path>"
  match t with
  | coordinator => "coordinator -c <config-path> <SUBCOMMAND>"
  | check => call ++ " check"
  | inspect => call ++ " inspect [OPTIONS]"

def Topic.parts : Topic → List String
  | coordinator => ["",
      "OPTIONS:",
      "    -c <config-path>        Path of the configuration file",
      "",
      "SUBCOMMANDS:",
      "    check      Loads and validates the settings",
      "    help       Prints this message or the help of the given subcommand(s)",
      "    inspect    Prints a summary of the latest checkpoint of an experiment"]
  | check => []
  | inspect => ["",
      "OPTIONS:",
      "        --experiment <experiment>    The experiment, defaults to the one of the configuration file"]

def Question.answer (configured : Bool) : Question → List String
  | version t => [t.title]
  | help t => [t.title] ++ t.about ++ ["", "USAGE:", "    " ++ t.usage configured, "",
      "FLAGS:",
      "    -h, --help       Prints help information",
      "    -V, --version    Prints version information"] ++ t.parts

end Federation.Coordinator
