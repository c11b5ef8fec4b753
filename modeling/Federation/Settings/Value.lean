import Federation.Binary64.Text
import Federation.Scalar
/-!
# Values of settings

Settings come from documents and from named variables. A `Setting` is one value as it was given,
before it is known what it is for. The readings below say what it counts as: a variable can only hold
a text, so a text may stand for a number or a truth value, and scalars stand for each other as far as
that is harmless.
-/

namespace Federation

inductive Setting where
  -- No value.
  | missing
  | flag (b : Bool)
  | whole (i : Int)
  | real (x : Float)
  | text (s : String)
  | list (items : List Setting)
  | table (fields : List (String × Setting))

namespace Setting

instance : Inhabited Setting := ⟨.missing⟩

def flagWord? (s : String) : Option Bool :=
  if s = "true" ∨ s = "on" ∨ s = "yes" then some true
  else if s = "false" ∨ s = "off" ∨ s = "no" then some false
  else none

/-- The truth value that a setting stands for. Numbers other than zero are true. -/
def asFlag? : Setting → Option Bool
  | flag b => some b
  | whole i => some (i != 0)
  | real x => some (x != 0.0)
  | text s =>
    let s := Text.lower s
    if s = "1" then some true else if s = "0" then some false else flagWord? s
  | _ => none

/-- The whole number that a setting stands for. Other numbers are rounded. -/
def asWhole? : Setting → Option Int
  | whole i => some i
  | flag b => some (if b then 1 else 0)
  | real x => some (Scalar.round x)
  | text s =>
    match flagWord? (Text.lower s) with
    | some b => some (if b then 1 else 0)
    | none => Text.readInt64 s
  | _ => none

/-- The number from `0` to `2^64 - 1` that a setting stands for, modulo `2^64`. -/
def asWord? (s : Setting) : Option UInt64 := s.asWhole?.map UInt64.ofInt

/-- The number from `0` to `255` that a setting stands for, modulo `256`. -/
def asByte? (s : Setting) : Option UInt8 := s.asWhole?.map UInt8.ofInt

def asFloat? : Setting → Option Float
  | real x => some x
  | whole i => some (Scalar.ofInt i)
  | flag b => some (if b then 1.0 else 0.0)
  | text s =>
    match flagWord? (Text.lower s) with
    | some b => some (if b then 1.0 else 0.0)
    | none => Binary64.read s
  | _ => none

def asText? : Setting → Option String
  | text s => some s
  | flag b => some (if b then "true" else "false")
  | whole i => some (toString i)
  | real x => some (Binary64.text .plain x)
  | _ => none

/-- The items of a list. Nothing else stands for a list. -/
def asList? {α : Type} (read : Setting → Option α) : Setting → Option (List α)
  | list items => items.mapM read
  | _ => none

/-- A choice by name, or by a table with the name as its only field. -/
def asChoice? {α : Type} (choices : List (String × α)) : Setting → Option α
  | text s => choices.lookup s
  | table [e] => choices.lookup e.1
  | _ => none

/-- What a setting stands for, or nothing if there is no value. -/
def asOption? {α : Type} (read : Setting → Option α) : Setting → Option (Option α)
  | missing => some none
  | s => (read s).map some

/-- The fields of a section by name. A section may also be a list of the values of its fields in
their order; those beyond the last field are ignored. -/
def asSection? (names : List String) : Setting → Option (List (String × Setting))
  | table fields => some fields
  | list items => some (names.zip items)
  | _ => none

end Setting

end Federation
