import Federation.Coordinator.Basic
/-!
# The command line

Collects the files that a call of the coordinator looks at, carries it out and prints its lines.
-/

open Federation

def environment : IO (List (String × String)) := do
  let text ← try IO.FS.readFile "/proc/self/environ" catch _ => pure ""
  let entry (e : String) : Option (String × String) :=
    match e.splitOn "=" with
    | name :: rest => if name.isEmpty then none else some (name, "=".intercalate rest)
    | [] => none
  return (text.splitOn "\x00").filterMap entry

/-- Puts a file into a tree, if it can be read. -/
def addFile (t : FileTree) (path : String) : IO FileTree := do
  try
    let content ← IO.FS.readFile path
    let p := FileStore.pathOf path
    let steps : List FileTree.Step := [.makeDirectories p.dropLast, .create p, .append p content]
    return steps.foldl (fun t s => (t.apply s).2) t
  catch _ => return t

/-- Puts the files of a directory into a tree, if it can be read. -/
def addDirectory (t : FileTree) (path : String) : IO FileTree := do
  try
    let cwd ← IO.currentDir
    (← (cwd / path).readDir).foldlM (fun t e => addFile t (FileStore.join path e.fileName)) t
  catch _ => return t

def collect (call : Coordinator.Call) (assigned : List (String × String)) : IO FileTree := do
  let t ← ((Coordinator.configPaths call.configPath).map FileStore.textOf).foldlM addFile {}
  match Settings.load (Coordinator.config? call.configPath t) assigned, call.command with
  | .ok s, .inspect experiment =>
    match experiment.or s.experiment.experimentId with
    | some experiment =>
      match FileStore.experimentDir s.checkpoint.path experiment with
      | .ok dir => addDirectory t dir
      | .error _ => return t
    | none => return t
  | _, _ => return t

def main (args : List String) : IO UInt32 := do
  let assigned ← environment
  let t ← match Coordinator.Call.parse? args with
    | some call => collect call assigned
    | none => pure {}
  let outcome := Coordinator.run args assigned t
  outcome.lines.forM IO.println
  return outcome.code
