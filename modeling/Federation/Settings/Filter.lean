import Federation.Text.Digits
import Federation.Text.WordChar
/-!
# Filters of log lines

A filter is a list of directives with commas between them. A directive sets the level up to which
lines are kept: for all lines, for those of the targets that start with a given name, or for those
within a span.
-/

namespace Federation

inductive LogLevel where
  | off | error | warn | info | debug | trace
deriving DecidableEq

namespace LogLevel

/-- The rank of a level. A line is kept if its level is at most the one of the filter. -/
def rank : LogLevel → Nat
  | off => 0 | error => 1 | warn => 2 | info => 3 | debug => 4 | trace => 5

def named : List (String × LogLevel) :=
  [("off", off), ("error", error), ("warn", warn), ("info", info), ("debug", debug), ("trace", trace)]

/-- All levels in ascending order. -/
def all : List LogLevel := named.map Prod.snd

/-- The level that a name in any case or a digit stands for. -/
def read? (s : String) : Option LogLevel :=
  match s.toList with
  | [c] => if c.isDigit then all[c.toNat - '0'.toNat]? else none
  | _ => named.lookup (Text.lower s)

def label : LogLevel → String
  | off => "OFF" | error => "ERROR" | warn => "WARN" | info => "INFO" | debug => "DEBUG" | trace => "TRACE"

end LogLevel

structure Directive where
  level : LogLevel
  -- The start of the targets that the directive is about, or nothing for all of them.
  target : Option String := none
  -- The text between the brackets of a span, if there is one.
  span : Option String := none

namespace Directive

def isTargetChar (c : Char) : Bool := Text.isWordChar c || c = ':' || c = '-'

/-- The target at the start of a directive, and what follows. -/
def readTarget (cs : List Char) : Option String × List Char :=
  let name := cs.takeWhile isTargetChar
  if name.isEmpty then (none, cs) else (some (String.ofList name), cs.drop name.length)

/-- The span at the start of a directive, and what follows. -/
def readSpan (cs : List Char) : Option String × List Char :=
  match cs with
  | '[' :: rest =>
    let name := rest.takeWhile (· ≠ ']')
    match rest.drop name.length with
    | _ :: rest => (some (String.ofList name), rest)
    | [] => (none, cs)
  | cs => (none, cs)

/-- A name that is none, but a level. -/
def isLevelName (s : String) : Bool :=
  (LogLevel.read? s).isSome || (Text.readWord s).any (· ≤ 5)

/-- A directive about a target, a span or both, and the level after an equals sign. Without a level
all lines are kept. -/
def readScoped (cs : List Char) : Option Directive := do
  let (first, cs) := readTarget cs
  let (span, cs) := readSpan cs
  let (target, cs) := if first.isSome then (first, cs) else readTarget cs
  let (span, cs) := if first.isNone && target.isNone && span.isSome then
      let (again, cs) := readSpan cs
      (again.orElse fun _ => span, cs)
    else (span, cs)
  if target.isNone && span.isNone then none
  let target := target.filter fun t => !isLevelName t
  match cs with
  | [] => some ⟨.trace, target, span⟩
  | ['='] => some ⟨.trace, target, span⟩
  | '=' :: level => (LogLevel.read? (String.ofList level)).map (⟨·, target, span⟩)
  | _ => none

/-- A directive: a level, or a level for some lines. -/
def read? (s : String) : Option Directive :=
  match LogLevel.read? s with
  | some level => some ⟨level, none, none⟩
  | none => readScoped s.toList

/-- Whether a directive is about lines of a target outside of all spans. Spans with a name or with
values never concern such lines. -/
def concerns (d : Directive) (target : String) : Bool :=
  d.span.all (·.isEmpty) && d.target.all fun t => target.startsWith t

end Directive

/-- A filter, as the list of its directives. -/
structure LogFilter where
  directives : List Directive

namespace LogFilter

/-- Reads a filter. Every directive has to be valid, also an empty one between two commas. -/
def read? (s : String) : Option LogFilter := ((s.splitOn ",").mapM Directive.read?).map LogFilter.mk

/-- The directive that decides about lines of a target: the one with the longest target, and of those
the last one. -/
def deciding (f : LogFilter) (target : String) : Option Directive :=
  let length (d : Directive) : Nat := d.target.elim 0 fun t => t.utf8ByteSize + 1
  (f.directives.filter (·.concerns target)).foldl (fun best d =>
    match best with
    | some b => if length d < length b then some b else some d
    | none => some d) none

def keeps (f : LogFilter) (level : LogLevel) (target : String) : Bool :=
  (f.deciding target).any fun d => level.rank ≤ d.level.rank

end LogFilter

end Federation
