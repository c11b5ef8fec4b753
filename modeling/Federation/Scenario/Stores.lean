import Federation.Scenario.Values
import Federation.Storage.Files
import Federation.Storage.Memory
/-!
# Stores of scenarios

A scenario names the kind of store it uses. Besides stores in memory, in files and one that keeps
nothing there are stores in memory that are never ready and that refuse every document.
-/

namespace Federation.Scenario

structure Stored where
  memory : Memory := {}
  tree : FileTree := {}

namespace Stored

def root : String := "root"

def inMemory : Store Stored where
  set id document s := (.ok (), { s with memory := s.memory.set id document })
  get id s := .ok (s.memory.get id)
  latest experiment s := .ok (s.memory.latest experiment)
  prepare s := (.ok (), s)

def inFiles : Store Stored :=
  let files := Store.files root
  { set := fun id document s =>
      let (r, tree) := files.set id document s.tree
      (r, { s with tree })
    get := fun id s => files.get id s.tree
    latest := fun experiment s => files.latest experiment s.tree
    prepare := fun s =>
      let (r, tree) := files.prepare s.tree
      (r, { s with tree }) }

def ofKind (kind : String) : Store Stored :=
  match kind with
  | "file" => inFiles
  | "noop" => .discarding
  | "unready" => { inMemory with prepare := fun s => (.error (.refused "the store is not ready"), s) }
  | "readonly" => { inMemory with set := fun _ _ s => (.error (.refused "the store is read-only"), s) }
  | _ => inMemory

/-- The names of the documents in a store of a kind: the files of a store in files, or else the
checkpoints. -/
def ids (kind : String) (s : Stored) : List String :=
  if kind = "file" then (s.tree.filesBelow (FileStore.pathOf root)).keys
  else s.memory.ids.map CheckpointId.label

/-- Puts a file or a directory below the root of the store in files. -/
def putFile (s : Stored) (j : Json) : Stored :=
  let path := FileStore.pathOf root ++ FileStore.pathOf (textAt j "path")
  if flagAt j "directory" then { s with tree := (s.tree.apply (.makeDirectories path)).2 }
  else
    let steps : List FileTree.Step :=
      [.makeDirectories path.dropLast, .create path, .append path (textAt j "blob")]
    { s with tree := steps.foldl (fun t step => (t.apply step).2) s.tree }

end Stored

end Federation.Scenario
