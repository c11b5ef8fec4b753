import Federation.Checkpoint.Saving
import Federation.Coordinator.Help
import Federation.Settings.Listing
import Federation.Storage.Files
/-!
# The coordinator

`Coordinator.run` says what a call of the coordinator prints and with which code it exits, given the
variables of its environment and the files below the directory it runs in.
-/

namespace Federation.Coordinator

structure Outcome where
  code : UInt32
  lines : List String
  deriving DecidableEq

/-- A call that failed before anything was printed. -/
def Outcome.refused : Outcome := ⟨1, []⟩

/-! ## The configuration -/

/-- The part of a file name before its last point, and the part after it. A point at the start does
not count. -/
def splitName (name : String) : String × Option String :=
  let cs := name.toList
  let extension := (cs.reverse.takeWhile (· ≠ '.')).reverse
  let stem := cs.take (cs.length - extension.length - 1)
  if stem.isEmpty then (name, none) else (String.ofList stem, some (String.ofList extension))

/-- The paths at which a configuration is looked for: the given one, and the one with the name of a
configuration document. -/
def configPaths (path : String) : List Path :=
  let p := FileStore.pathOf path
  match p.getLast? with
  | some name => [p, p.dropLast ++ [(splitName name).1 ++ ".toml"]]
  | none => []

/-- The text of the configuration. A file at the given path itself has to be a configuration document
by its name. -/
def config? (path : String) (t : FileTree) : Option String :=
  match (configPaths path).find? fun p => (t.read p).toOption.isSome with
  | some p =>
    if (p.getLast?.map splitName).bind Prod.snd = some "toml" then (t.read p).toOption else none
  | none => none

/-! ## Log lines -/

/-- The line of a message, if the filter keeps it. -/
def logLines (filter : LogFilter) (level : LogLevel) (target message : String) : List String :=
  if filter.keeps level target then
    [s!"{Text.alignRight 5 level.label} {target}: {message}"]
  else []

def callTarget : String := "coordinator"

def checkpointTarget : String := "fedround_controller::checkpoint"

/-! ## Commands -/

/-- Why a checkpoint could not be loaded: the error, and the cause of a failure of the store. -/
def reasons : CheckpointError → List String
  | .storage e =>
    match e.causes with
    | [] => []
    | reason :: causes => s!"The checkpoint storage failed: {reason}." :: reason :: causes
  | e => [Failure.message e]

/-- The lines about a completed round: a heading, and one line per participant. -/
def roundLines (r : RoundRecord Float) : List String :=
  let number := Text.alignRight 4 (toString r.roundNumber)
  let counts := s!"{r.participants.size} participants, {r.sampleCount} samples"
  s!"round {number}: {counts}, completed at {r.completedAt.display}" ::
    r.participants.toList.map fun (node, reply) =>
      s!"    {Text.alignLeft 24 node} {Text.alignRight 8 (toString reply.sampleCount)} samples"

def summary (c : Checkpoint Float) : List String :=
  [s!"experiment:    {c.experimentId}",
    s!"researcher:    {c.researcherId}",
    s!"saved at:      {c.createdAt.display}",
    s!"round:         {c.roundCurrent}/{c.roundLimit}",
    s!"aggregator:    {c.aggregator.name}",
    s!"optimizer:     {c.optimizer.name}",
    s!"nodes:         {c.dataset.size}"] ++
  c.history.flatMap roundLines

def check (path : String) (s : Settings) : Outcome :=
  ⟨0, s.listing ++ logLines s.log.filter .info callTarget s!"settings in {path} are valid"⟩

def inspect (s : Settings) (experiment : Option ExperimentId) (t : FileTree) : Outcome :=
  let failed (message : String) : Outcome := ⟨1, logLines s.log.filter .error callTarget message⟩
  match experiment.or s.experiment.experimentId with
  | none => failed "no experiment given and none configured"
  | some experiment =>
    match Checkpoint.load (Store.files s.checkpoint.path) experiment none t with
    | .error e =>
      failed (": ".intercalate (s!"failed to load the latest checkpoint of {experiment}" :: reasons e))
    | .ok c =>
      ⟨0, logLines s.log.filter .debug checkpointTarget s!"checkpoint {c.id.label} loaded" ++ summary c⟩

/-- Carries out a call, or answers the question that it puts. -/
def run (args : List String) (assigned : List (String × String)) (t : FileTree) : Outcome :=
  match Question.ofArgs? false args, Call.parse? args with
  | some (q, configured), _ => ⟨0, q.answer configured⟩
  | none, none => .refused
  | none, some call =>
    match Settings.load (config? call.configPath t) assigned with
    | .error _ => .refused
    | .ok s =>
      match call.command with
      | .check => check call.configPath s
      | .inspect experiment => inspect s experiment t

end Federation.Coordinator
