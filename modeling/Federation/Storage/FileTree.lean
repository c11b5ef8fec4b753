import Federation.Storage.Basic
/-!
# Trees of files

A file system as the store of checkpoints sees it: a map from paths to files and directories, in
which a rename replaces its target at once. The empty path is the directory the program runs in,
which always exists.
-/

namespace Federation

/-- A path, as the names on the way from the working directory. -/
abbrev Path := List String

inductive FileEntry where
  | file (content : String)
  | directory
  deriving DecidableEq

/-- Which names a file system refuses. -/
structure NameRule where
  -- Names that no path may have in it.
  invalid : String → Bool
  -- Names that no directory takes.
  tooLong : String → Bool

/-- Names end at a zero byte and have at most 255 bytes. -/
def NameRule.standard : NameRule where
  invalid name := name.toList.any fun c => c.toNat = 0
  tooLong name := 255 < name.utf8ByteSize

structure FileTree where
  entries : SortedMap Path FileEntry := .empty
  names : NameRule := .standard

namespace FileTree

def checkPath (t : FileTree) (p : Path) : Except SystemError Unit :=
  if p.any t.names.invalid then .error .invalidName else .ok ()

def checkName (t : FileTree) (name : String) : Except SystemError Unit :=
  if t.names.tooLong name then .error .nameTooLong else .ok ()

/-- What stands at a path, following it from a directory. -/
def follow (t : FileTree) (at_ : Path) (entry : FileEntry) : Path → Except SystemError FileEntry
  | [] => .ok entry
  | name :: rest =>
    match entry with
    | .file _ => .error .notADirectory
    | .directory => do
      t.checkName name
      match t.entries.find? (at_ ++ [name]) with
      | none => .error .notFound
      | some entry => t.follow (at_ ++ [name]) entry rest

def look (t : FileTree) (p : Path) : Except SystemError FileEntry := do
  t.checkPath p
  t.follow [] .directory p

def read (t : FileTree) (p : Path) : Except SystemError String := do
  match ← t.look p with
  | .file content => return content
  | .directory => throw .isADirectory

def list (t : FileTree) (p : Path) : Except SystemError (List String) := do
  match ← t.look p with
  | .file _ => throw .notADirectory
  | .directory =>
    return t.entries.keys.filterMap fun q => if q.dropLast = p then q.getLast? else none

def put (t : FileTree) (p : Path) (entry : FileEntry) : FileTree :=
  { t with entries := t.entries.insert p entry }

def remove (t : FileTree) (p : Path) : FileTree := { t with entries := t.entries.erase p }

/-- Refuses a path at which no file can be written. -/
def checkTarget (t : FileTree) (p : Path) : Except SystemError Unit :=
  match t.look p with
  | .ok (.file _) => .ok ()
  | .ok .directory => .error .isADirectory
  | .error .notFound => do
    let _ ← t.look p.dropLast
    return ()
  | .error e => .error e

/-- Makes the directories on the way of a path that are missing. -/
def makeDirectories (t : FileTree) (at_ : Path) : Path → Except SystemError Unit × FileTree
  | [] => (.ok (), t)
  | name :: rest =>
    let p := at_ ++ [name]
    match t.checkName name with
    | .error e => (.error e, t)
    | .ok () =>
      match t.entries.find? p with
      | some .directory => t.makeDirectories p rest
      | some (.file _) => (.error (if rest.isEmpty then .alreadyExists else .notADirectory), t)
      | none => (t.put p .directory).makeDirectories p rest

inductive Step where
  -- Makes a directory and those on its way.
  | makeDirectories (p : Path)
  -- Opens an empty file, emptying one that exists.
  | create (p : Path)
  -- Writes a text at the end of a file.
  | append (p : Path) (text : String)
  -- Moves a file, replacing another one.
  | rename (source target : Path)
  -- Makes what has been done to a file or directory outlast a crash.
  | sync (p : Path)
  deriving DecidableEq

/-- Takes a step. A step that fails may have made some directories. -/
def apply (t : FileTree) : Step → Except SystemError Unit × FileTree
  | .makeDirectories p =>
    match t.checkPath p with
    | .error e => (.error e, t)
    | .ok () => t.makeDirectories [] p
  | .create p =>
    match t.checkTarget p with
    | .error e => (.error e, t)
    | .ok () => (.ok (), t.put p (.file ""))
  | .append p text =>
    match t.read p with
    | .error e => (.error e, t)
    | .ok content => (.ok (), t.put p (.file (content ++ text)))
  | .rename source target =>
    match t.read source, t.checkTarget target with
    | .error e, _ | .ok _, .error e => (.error e, t)
    | .ok content, .ok () => (.ok (), (t.remove source).put target (.file content))
  | .sync _ => (.ok (), t)

/-- Takes steps until one fails, each with the context in which its failure is reported. -/
def run (t : FileTree) : List (String × Step) → Except StorageError Unit × FileTree
  | [] => (.ok (), t)
  | (context, s) :: rest =>
    match t.apply s with
    | (.ok (), t) => t.run rest
    | (.error e, t) => (.error (.system context e), t)

/-- The files below a directory with their contents, named by their paths. -/
def filesBelow (t : FileTree) (root : Path) : NameMap String :=
  .ofList (t.entries.toList.filterMap fun
    | (p, .file content) =>
      if root.isPrefixOf p then some ("/".intercalate (p.drop root.length), content) else none
    | (_, .directory) => none)

end FileTree

end Federation
