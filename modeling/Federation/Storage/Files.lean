import Federation.Storage.FileTree
import Federation.Text.Quoted
/-!
# The store of checkpoints in files

Below the root of the store each experiment has a directory, and in it each checkpoint a file named
for its round. A document is written to a temporary file first, which then takes the place of the
checkpoint by a rename. So a checkpoint is seen whole or not at all, and a write that is cut off
leaves the earlier document.
-/

namespace Federation.FileStore

def namePrefix : String := "round_"

def nameSuffix : String := ".json"

/-- The name of the file of a checkpoint, with at least six digits. -/
def fileName (round : RoundNumber) : String :=
  namePrefix ++ Text.padded 6 round.toNat ++ nameSuffix

/-- The name of the file to which a checkpoint is written first. -/
def temporaryName (round : RoundNumber) : String := "." ++ fileName round ++ ".tmp"

def dropLeading : List Char → List Char → Option (List Char)
  | [], cs => some cs
  | p :: ps, c :: cs => if p = c then dropLeading ps cs else none
  | _ :: _, [] => none

/-- The round for which a file is named. Any number of digits is read, also after a plus sign. -/
def parseFileName (name : String) : Option RoundNumber := do
  let rest ← dropLeading namePrefix.toList name.toList
  let digits ← dropLeading nameSuffix.toList.reverse rest.reverse
  Text.readWord (String.ofList digits.reverse)

/-- The names on the way of a path that is written with slashes. A single point stands for the
directory it follows. A slash at the start leads away from the working directory and stays. -/
def pathOf (text : String) : Path :=
  let names := (text.splitOn "/").filter fun name => !(name = "" || name = ".")
  if text.startsWith "/" then "/" :: names else names

def textOf : Path → String
  | "/" :: names => "/" ++ "/".intercalate names
  | names => "/".intercalate names

/-- A path written with slashes, followed by a name. -/
def join (path name : String) : String :=
  if path.isEmpty || path.endsWith "/" then path ++ name else path ++ "/" ++ name

/-- The directory of an experiment, unless its identifier is no name for one. -/
def experimentDir (root : String) (experiment : ExperimentId) : Except StorageError String :=
  if experiment = "" ∨ experiment = "." ∨ experiment = ".." ∨
      experiment.toList.any (fun c => c = '/' || c = '\\') then
    .error (.refused ("invalid experiment id for a file store: " ++ Text.quoted experiment))
  else .ok (join root experiment)

def directory (root : String) (experiment : ExperimentId) : Path := pathOf root ++ [experiment]

def file (root : String) (id : CheckpointId) : Path :=
  directory root id.experimentId ++ [fileName id.round]

/-- The steps that store a document, with the wording of their failures. -/
def writeSteps (root : String) (id : CheckpointId) (document : String) :
    List (String × FileTree.Step) :=
  let dir := join root id.experimentId
  let temporary := join dir (temporaryName id.round)
  let p := directory root id.experimentId ++ [temporaryName id.round]
  [(s!"failed to create {dir}", .makeDirectories (directory root id.experimentId)),
    (s!"failed to create {temporary}", .create p),
    (s!"failed to write {temporary}", .append p document),
    (s!"failed to sync {temporary}", .sync p),
    (s!"failed to move the checkpoint to {join dir (fileName id.round)}", .rename p (file root id)),
    (s!"failed to sync {dir}", .sync (directory root id.experimentId))]

def set (root : String) (id : CheckpointId) (document : String) (t : FileTree) :
    Except StorageError Unit × FileTree :=
  match experimentDir root id.experimentId with
  | .error e => (.error e, t)
  | .ok _ => t.run (writeSteps root id document)

def get (root : String) (id : CheckpointId) (t : FileTree) : Except StorageError (Option String) := do
  let dir ← experimentDir root id.experimentId
  match t.read (file root id) with
  | .ok document => return some document
  | .error .notFound => return none
  | .error e => throw (.system s!"failed to read {join dir (fileName id.round)}" e)

def greatest : List RoundNumber → Option RoundNumber
  | [] => none
  | r :: rest => some ((greatest rest).elim r (max r))

/-- The checkpoint of an experiment with the most rounds. Files with other names do not count. -/
def latest (root : String) (experiment : ExperimentId) (t : FileTree) :
    Except StorageError (Option CheckpointId) := do
  let dir ← experimentDir root experiment
  match t.list (directory root experiment) with
  | .ok names => return (greatest (names.filterMap parseFileName)).map fun r => ⟨experiment, r⟩
  | .error .notFound => return none
  | .error e => throw (.system s!"failed to list {dir}" e)

end FileStore

/-- The store in files below a root directory, which is made when it is needed. -/
def Store.files (root : String) : Store FileTree where
  set := FileStore.set root
  get := FileStore.get root
  latest := FileStore.latest root
  prepare t := t.run [(s!"failed to create {root}", .makeDirectories (FileStore.pathOf root))]

end Federation
