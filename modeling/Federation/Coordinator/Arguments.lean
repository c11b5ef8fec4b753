/-!
# Arguments of the coordinator

The coordinator is called with the path of its configuration and a command:
`-c PATH check` or `-c PATH inspect [--experiment NAME]`.
-/

namespace Federation.Coordinator

inductive Command where
  -- Shows the settings.
  | check
  -- Summarizes the latest checkpoint of an experiment, or of the configured one.
  | inspect (experiment : Option String)
  deriving DecidableEq

structure Call where
  configPath : String
  command : Command
  deriving DecidableEq

/-- Whether an argument is an option. A single dash is a value. -/
def isOption (arg : String) : Bool := arg.startsWith "-" && arg != "-"

/-- The value of an option as part of the same argument or as the next one, and the arguments that
follow. -/
def optionValue (name : String) (attached : Bool) : List String → Option (String × List String)
  | [] => none
  | arg :: rest =>
    if arg = name then
      match rest with
      | value :: rest => if isOption value then none else some (value, rest)
      | [] => none
    else if arg.startsWith (name ++ "=") then
      some ((arg.drop (name.length + 1)).toString, rest)
    else if attached && arg.startsWith name then some ((arg.drop name.length).toString, rest)
    else none

/-- Whether no argument is left. Two dashes may end the arguments. -/
def isEnd (args : List String) : Bool := args.isEmpty || args == ["--"]

def Command.parse? : List String → Option Command
  | "check" :: rest => if isEnd rest then some .check else none
  | "inspect" :: rest =>
    if isEnd rest then some (.inspect none)
    else (optionValue "--experiment" false rest).bind fun (experiment, rest) =>
      if isEnd rest then some (.inspect (some experiment)) else none
  | _ => none

def Call.parse? (args : List String) : Option Call := do
  let (configPath, rest) ← optionValue "-c" true args
  return ⟨configPath, ← Command.parse? rest⟩

end Federation.Coordinator
