import Federation.Json.Basic
/-!
# Reading values out of documents

A schema reads a document into a type, or refuses it. A record is an object with known field names,
or an array with its fields in order; no field may occur twice. Fields the record does not know are
skipped, or refused if the record is closed. A choice is a text that names the case or an object with
one field, the case and its content.

A value is usually decoded in the course of reading. A part whose kind is given behind it is first kept
as it is and decoded once its kind is known. The two ways differ in what they take for a case without
content and for bytes.
-/

namespace Federation.Json

/-- How a value is decoded: in the course of reading, or after it was kept. -/
inductive Decoding where
  | direct
  | kept
  deriving DecidableEq

def asBool? : Json → Option Bool
  | .bool b => some b
  | _ => none

def asString? : Json → Option String
  | .str s => some s
  | _ => none

/-- The bytes of a text, also of one that is no string. -/
def textBytes? : Json → Option (List UInt8)
  | .str s => some (s.toList.flatMap String.utf8EncodeChar)
  | .halved bytes => some bytes
  | _ => none

/-- A whole number below `2^64`. -/
def asWord? : Json → Option UInt64
  | .num (.word n) => some n
  | _ => none

/-- A whole number below `2^32`. -/
def asWord32? (j : Json) : Option UInt32 :=
  j.asWord?.bind fun n => if n.toNat < UInt32.size then some n.toUInt32 else none

/-- A whole number below `2^8`. -/
def asByte? (j : Json) : Option UInt8 :=
  j.asWord?.bind fun n => if n.toNat < UInt8.size then some n.toUInt8 else none

/-- A number, as the nearest float. -/
def asFloat? : Json → Option Float
  | .num (.word n) => some n.toFloat
  | .num (.negative i) => some (-(UInt64.ofNat i.natAbs).toFloat)
  | .num (.float x) => some x
  | _ => none

def asList? {α : Type} (read : Json → Option α) : Json → Option (List α)
  | .arr items => items.mapM read
  | _ => none

/-- An object as a map. Of several fields of one name the last one counts, but each must be
readable. -/
def asMap? {α : Type} (read : Json → Option α) : Json → Option (NameMap α)
  | .obj fields =>
    (fields.mapM fun e => (read e.2).map fun a => (e.1, a)).map SortedMap.ofList
  | _ => none

def asNames? (j : Json) : Option NameSet := (j.asList? asString?).map SortedMap.setOf

/-- A value which may be `null`. -/
def asOption? {α : Type} (read : Json → Option α) : Json → Option (Option α)
  | .null => some none
  | j => (read j).map some

/-! ## Records -/

structure Record where
  fields : List (String × Json)
  -- Whether the fields were given by position.
  positional : Bool

/-- Whether no name occurs twice. -/
def distinct : List String → Bool
  | [] => true
  | k :: rest => !rest.contains k && distinct rest

def asRecord? (names : List String) (closed : Bool) : Json → Option Record
  | .obj fields =>
    let known := fields.filter fun e => names.contains e.1
    if closed && known.length != fields.length then none
    else if distinct (known.map Prod.fst) then some ⟨known, false⟩ else none
  | .arr items => if items.length ≤ names.length then some ⟨names.zip items, true⟩ else none
  | _ => none

namespace Record

variable {α : Type}

def field? (r : Record) (name : String) : Option Json := r.fields.lookup name

def required (r : Record) (name : String) (read : Json → Option α) : Option α :=
  (r.field? name).bind read

def withDefault (r : Record) (name : String) (default : α) (read : Json → Option α) : Option α :=
  match r.field? name with
  | none => some default
  | some j => read j

/-- A field that may be missing or `null`. -/
def optional (r : Record) (name : String) (read : Json → Option α) : Option (Option α) :=
  r.withDefault name none (asOption? read)

/-- A field that may be missing by name, but not by position, or `null`. -/
def nullable (r : Record) (name : String) (read : Json → Option α) : Option (Option α) :=
  match r.field? name with
  | none => if r.positional then none else some none
  | some j => asOption? read j

end Record

/-! ## Choices -/

/-- The case of a choice and its content, if it has one. -/
def asChoice? : Json → Option (String × Option Json)
  | .str name => some (name, none)
  | .obj [(name, j)] => some (name, some j)
  | _ => none

def case (name : String) (j : Json) : Json := .obj [(name, j)]

/-- The case of a choice whose cases have no content. Of a kept value an empty object counts as none. -/
def asCase? (d : Decoding) (j : Json) : Option String :=
  match j.asChoice? with
  | some (name, none) | some (name, some .null) => some name
  | some (name, some (.obj [])) => if d = .kept then some name else none
  | _ => none

end Federation.Json
