import Federation.Toml.Moment
import Federation.Toml.Number
/-!
# Configuration documents

`Toml.parse` reads a document in TOML. A document is a list of blocks: each starts with the name of a
table in brackets, the first one is about the document itself, and each holds entries, a path and its
value.

The blocks and entries say piecewise what a table holds. `tableOf` and `assemble` put the pieces
together and refuse documents that say two things about one place.
-/

namespace Federation.Toml

abbrev Entry := List String × Setting

def entriesBelow (k : String) (entries : List Entry) : List Entry :=
  entries.filterMap fun e =>
    match e.1 with
    | h :: t => if h = k then some (t, e.2) else none
    | [] => none

/-- The first parts of paths, each once. -/
def heads (paths : List (List String)) : List String := (paths.filterMap List.head?).eraseDups

/-- The table of entries with paths up to the given length. A key has one value, or all its entries
are about places below it. -/
def tableUpTo : Nat → List Entry → Option (List (String × Setting))
  | 0, entries => if entries.isEmpty then some [] else none
  | depth + 1, entries =>
    (heads (entries.map Prod.fst)).mapM fun k =>
      match entriesBelow k entries with
      | [([], v)] => some (k, v)
      | below =>
        if below.any fun e => e.1.isEmpty then none
        else (tableUpTo depth below).map fun fields => (k, .table fields)

def longest (paths : List (List String)) : Nat := (paths.map List.length).foldl max 0

def tableOf (entries : List Entry) : Option (List (String × Setting)) :=
  tableUpTo (longest (entries.map Prod.fst)) entries

/-! ## Values -/

mutual

def readValue : Nat → List Char → Option (Setting × List Char)
  | 0, _ => none
  | fuel + 1, cs =>
    match cs with
    | [] => none
    | '\x7b' :: rest =>
      match skip rest with
      | '\x7d' :: rest => some (.table [], rest)
      | rest => do
        let (entries, rest) ← readFields fuel rest
        (tableOf entries).map fun fields => (.table fields, rest)
    | '[' :: rest =>
      (readItems fuel (skipLines false rest)).map fun (items, rest) => (.list items, rest)
    | c :: rest =>
      if c = '"' ∨ c = '\'' then (readText c rest).map fun (_, s, rest) => (.text s, rest)
      else
        let (name, after) := word cs
        if name = "true".toList then some (.flag true, after)
        else if name = "false".toList then some (.flag false, after)
        else
          match readMoment cs with
          | some (s, rest) => some (.text s, rest)
          | none => readNumber cs

def readItems : Nat → List Char → Option (List Setting × List Char)
  | 0, _ => none
  | fuel + 1, cs =>
    match cs with
    | ']' :: rest => some ([], rest)
    | cs =>
      match readValue fuel cs with
      | none => none
      | some (v, rest) =>
        match skipLines false rest with
        | ',' :: rest =>
          (readItems fuel (skipLines false rest)).map fun (items, rest) => (v :: items, rest)
        | ']' :: rest => some ([v], rest)
        | _ => none

/-- The entries of a table within a line and its closing brace. -/
def readFields : Nat → List Char → Option (List Entry × List Char)
  | 0, _ => none
  | fuel + 1, cs =>
    match readEntry fuel cs with
    | none => none
    | some (e, rest) =>
      match skip rest with
      | ',' :: rest => (readFields fuel (skip rest)).map fun (entries, rest) => (e :: entries, rest)
      | '\x7d' :: rest => some ([e], rest)
      | _ => none

/-- A path, the equals sign and a value. -/
def readEntry : Nat → List Char → Option (Entry × List Char)
  | 0, _ => none
  | fuel + 1, cs =>
    match readPath (cs.length + 1) cs with
    | some (path, '=' :: rest) => (readValue fuel (skip rest)).map fun (v, rest) => ((path, v), rest)
    | _ => none

end

/-! ## Blocks -/

structure Block where
  path : List String
  -- Whether the table is the next item of a list of tables.
  isItem : Bool := false
  fields : List (String × Setting) := []

def blocksBelow (k : String) (blocks : List Block) : List Block :=
  blocks.filterMap fun b =>
    match b.path with
    | h :: t => if h = k then some { b with path := t } else none
    | [] => none

/-- Splits blocks before each item. -/
def splitItems : List Block → List (List Block)
  | [] => []
  | b :: rest =>
    match splitItems rest with
    | [] => [[b]]
    | part :: parts =>
      if part.head?.any fun b => b.path.isEmpty && b.isItem then [b] :: part :: parts
      else (b :: part) :: parts

/-- The table that blocks with paths below the given length are about. At most one of them is about
the table itself; the others are about tables in it, or about lists of tables if the first one is. -/
def assemble : Nat → List Block → Option (List (String × Setting))
  | 0, _ => none
  | depth + 1, blocks => do
    let own := blocks.filter (·.path.isEmpty)
    let fields ← match own with
      | [] => some []
      | [b] => if b.isItem then none else some b.fields
      | _ => none
    let tables ← (heads (blocks.map Block.path)).mapM fun k =>
      let below := blocksBelow k blocks
      if below.head?.any fun b => b.path.isEmpty && b.isItem then do
        let items ← (splitItems below).mapM fun part =>
          match part with
          | b :: rest => (assemble depth ({ b with isItem := false } :: rest)).map Setting.table
          | [] => none
        some (k, Setting.list items)
      else (assemble depth below).map fun fields => (k, Setting.table fields)
    if tables.any fun e => fields.any (·.1 = e.1) then none else some (fields ++ tables)

/-- The entries up to the next line that starts with a bracket, and that line. -/
def readEntries : Nat → List Char → Option (List Entry × List Char)
  | 0, _ => none
  | fuel + 1, cs =>
    match skipLines false cs with
    | [] => some ([], [])
    | '[' :: rest => some ([], '[' :: rest)
    | cs =>
      match readEntry (2 * cs.length + 2) cs with
      | none => none
      | some (e, rest) =>
        match endLine? rest with
        | none => none
        | some rest => (readEntries fuel rest).map fun (entries, rest) => (e :: entries, rest)

/-- The line that names a table, with the line break. -/
def readHeader (cs : List Char) : Option (Block × List Char) :=
  match cs with
  | '[' :: '[' :: rest =>
    match readPath (rest.length + 1) rest with
    | some (path, ']' :: ']' :: rest) => (endLine? rest).map (⟨path, true, []⟩, ·)
    | _ => none
  | '[' :: rest =>
    match readPath (rest.length + 1) rest with
    | some (path, ']' :: rest) => (endLine? rest).map (⟨path, false, []⟩, ·)
    | _ => none
  | _ => none

/-- A block, of which the first line was read, and all further ones. -/
def readBlocks : Nat → Block → List Char → Option (List Block)
  | 0, _, _ => none
  | fuel + 1, b, cs => do
    let (entries, rest) ← readEntries (cs.length + 1) cs
    let fields ← tableOf entries
    let b := { b with fields }
    if rest.isEmpty then some [b]
    else
      let (next, rest) ← readHeader rest
      (readBlocks fuel next rest).map (b :: ·)

/-- Replaces each line break of two characters by one of one character. -/
def unifyLineBreaks : List Char → List Char
  | '\r' :: '\n' :: rest => '\n' :: unifyLineBreaks rest
  | c :: rest => c :: unifyLineBreaks rest
  | [] => []

/-- The characters of a text without the mark that some editors put in front. -/
def withoutMark (cs : List Char) : List Char :=
  match cs with
  | c :: rest => if c.toNat = 0xFEFF then rest else cs
  | [] => []

def parse (text : String) : Option (List (String × Setting)) := do
  let cs := unifyLineBreaks (withoutMark text.toList)
  let blocks ← readBlocks (cs.length + 1) { path := [] } cs
  assemble (longest (blocks.map Block.path) + 1) blocks

end Federation.Toml
