import Federation.Settings.Value
/-!
# Layers of settings

The settings of a controller are laid over each other: those of a document, and over them those of
variables. Each layer gives values to places. `Setting.put` puts a value to a place: tables are merged
field by field, anything else replaces what was there, and what stands in the way of the place is
replaced by a table or a list.
-/

namespace Federation

inductive Place.Step where
  -- The field of a table.
  | field (name : String)
  -- The item of a list. A negative number counts from the end.
  | item (index : Int)

/-- A place in a table: the field of the table, and the steps from there. -/
structure Place where
  field : String
  steps : List Place.Step := []

namespace Place

def isNameChar (c : Char) : Bool := c.isAlphanum || c = ' ' || c = '_' || c = '-'

def isBlank (c : Char) : Bool := c = ' ' || c = '\t'

/-- The steps of a place: each name after a dot, each number in brackets. -/
def readSteps : Nat → List Char → Option (List Step)
  | 0, _ => none
  | _ + 1, [] => some []
  | fuel + 1, c :: rest =>
    if c = '.' then
      let name := rest.takeWhile isNameChar
      if name.isEmpty then none
      else (readSteps fuel (rest.drop name.length)).map (.field (String.ofList name) :: ·)
    else if c = '[' then
      let inner := rest.takeWhile (· ≠ ']')
      let digits := ((inner.dropWhile isBlank).reverse.dropWhile isBlank).reverse
      match Text.readInt64 (String.ofList digits), digits.head?, rest.drop inner.length with
      | some i, some d, _ :: rest =>
        if d = '+' then none else (readSteps fuel rest).map (.item i :: ·)
      | _, _, _ => none
    else none

/-- The place that a key names. A key that does not have the form of a place is a field. -/
def ofKey (key : String) : Place :=
  let cs := key.toList
  let name := cs.takeWhile isNameChar
  match name.isEmpty, readSteps (cs.length + 1) (cs.drop name.length) with
  | false, some steps => ⟨String.ofList name, steps⟩
  | _, _ => ⟨key, []⟩

end Place

namespace Setting

/-- The fields of a table, none for anything else. -/
def fieldsOf : Setting → List (String × Setting)
  | table fields => fields
  | _ => []

/-- The items of a list, none for anything else. -/
def itemsOf : Setting → List Setting
  | list items => items
  | _ => []

/-- Replaces the value of a field, which is missing if it was not there. -/
def modifyField (k : String) (f : Setting → Setting) :
    List (String × Setting) → List (String × Setting)
  | [] => [(k, f missing)]
  | e :: rest => if e.1 = k then (k, f e.2) :: rest else e :: modifyField k f rest

/-- Replaces an item. The list is filled up with missing values as far as needed. -/
def modifyItem (i : Int) (f : Setting → Setting) (items : List Setting) : List Setting :=
  let n := if 0 ≤ i then i.toNat else items.length - i.natAbs
  let items := items ++ List.replicate (n + 1 - items.length) missing
  items.modify n f

mutual

/-- Lays a value over another one. A table is merged into the fields of the other one, unless it has
no fields. -/
def layOver : Setting → Setting → Setting
  | table fields, old =>
    match old with
    | missing => table (layFields fields [])
    | table old => table (layFields fields old)
    | old => if fields.isEmpty then old else table (layFields fields [])
  | new, _ => new

def layFields : List (String × Setting) → List (String × Setting) → List (String × Setting)
  | [], old => old
  | e :: rest, old => layFields rest (layField e old)

def layField : String × Setting → List (String × Setting) → List (String × Setting)
  | (k, v), old => modifyField k (layOver v) old

end

/-- Puts a value to the place that steps lead to. An item is replaced, a field is laid over. -/
def putSteps (v : Setting) : List Place.Step → Setting → Setting
  | [], old => layOver v old
  | [.item i], s => list (modifyItem i (fun _ => v) s.itemsOf)
  | .field k :: rest, s => table (modifyField k (putSteps v rest) s.fieldsOf)
  | .item i :: rest, s => list (modifyItem i (putSteps v rest) s.itemsOf)

def put (fields : List (String × Setting)) (e : String × Setting) : List (String × Setting) :=
  let place := Place.ofKey e.1
  modifyField place.field (putSteps e.2 place.steps) fields

/-- The value that a variable gives to a place. Its name starts with the name of the program; two
underscores go one step further. Case does not matter. -/
def ofVariable? (e : String × String) : Option (String × Setting) :=
  let name := Text.lower e.1
  if name.startsWith "fedround_" then some ((name.drop 9).toString.replace "__" ".", .text e.2)
  else none

/-- The settings of a document, overridden by variables. -/
def layered (document : List (String × Setting)) (assigned : List (String × String)) : Setting :=
  table ((assigned.filterMap ofVariable?).foldl put (document.foldl put []))

end Setting

end Federation
