import Federation.Coordinator.Basic
import Federation.Scenario.Stores
/-!
# Calls of scenarios

A scenario calls the coordinator in a directory that holds a configuration and the files of a store.
-/

namespace Federation.Scenario

def callFiles (j : Json) : FileTree :=
  let stored : Stored := (listAt j "files").foldl Stored.putFile {}
  match optional j "toml" text with
  | some t =>
    let steps : List FileTree.Step := [.create ["config.toml"], .append ["config.toml"] t]
    steps.foldl (fun t s => (t.apply s).2) stored.tree
  | none => stored.tree

/-- The lines of a text, which may break within it. -/
def brokenLines (lines : List String) : List String := lines.flatMap fun l => l.splitOn "\n"

/-- The lines up to the settings of the log, whose form is left open. -/
def comparedLines (lines : List String) : List String :=
  (brokenLines lines).takeWhile fun l => !l.startsWith "    log:"

def call (j : Json) : Json :=
  let r := Coordinator.run (texts (get j "args")) [] (callFiles j)
  .obj [("code", .count r.code.toNat), ("stdout", .list .str (comparedLines r.lines))]

end Federation.Scenario
