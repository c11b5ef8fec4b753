import Federation.SortedMap
import Federation.Word
/-!
# JSON trees

A `Json` is a document as it was written: the fields of an object keep their order and may repeat.
`Json.normalize` sorts the fields of every object and keeps the last one of each name, which is how
free-form values are held; `FreeForm` is the type of such values.

A document may contain a number beyond the range of floats or a text with half of a surrogate pair.
Such a value is grammatical but has no meaning, and only a reader that skips it accepts it. A text of
that kind keeps its bytes, since a reader may ask for bytes in place of characters.
-/

namespace Federation

inductive Json.Number where
  -- A whole number from `0` to `2^64 - 1`.
  | word (n : UInt64)
  -- A whole number from `-2^63` to `-1`.
  | negative (i : Int)
  -- Any other number.
  | float (x : Float)

inductive Json where
  | null
  | bool (b : Bool)
  | num (n : Json.Number)
  | str (s : String)
  | arr (items : List Json)
  | obj (fields : List (String × Json))
  -- A text with half of a surrogate pair, by its bytes.
  | halved (bytes : List UInt8)
  -- Any other grammatical value without meaning.
  | unreadable

namespace Json

instance : Inhabited Json := ⟨.null⟩

def word (n : UInt64) : Json := .num (.word n)

def count (n : Nat) : Json := .num (.word (UInt64.ofNat n))

/-- A finite float is a number, any other one `null`. -/
def float (x : Float) : Json := if x.isFinite then .num (.float x) else .null

/-- A missing value is `null`. -/
def option {α : Type} (f : α → Json) : Option α → Json
  | none => .null
  | some a => f a

def list {α : Type} (f : α → Json) (l : List α) : Json := .arr (l.map f)

/-- A map is an object with ascending names. -/
def map {α : Type} (f : α → Json) (m : NameMap α) : Json := .obj (m.toList.map fun e => (e.1, f e.2))

/-- A set of names is an array in ascending order. -/
def names (s : NameSet) : Json := list .str s.keys

mutual

def depth : Json → Nat
  | .arr items => 1 + depthItems items
  | .obj fields => 1 + depthFields fields
  | _ => 0

def depthItems : List Json → Nat
  | [] => 0
  | j :: rest => max (depth j) (depthItems rest)

def depthFields : List (String × Json) → Nat
  | [] => 0
  | e :: rest => max (depthField e) (depthFields rest)

def depthField : String × Json → Nat
  | (_, j) => depth j

end

mutual

/-- Sorts the fields of every object, keeping the last one of each name. -/
def normalize : Json → Json
  | .arr items => .arr (normalizeItems items)
  | .obj fields => .obj (SortedMap.ofList (normalizeFields fields)).toList
  | j => j

/-- Normalizes each item. -/
def normalizeItems : List Json → List Json
  | [] => []
  | j :: rest => normalize j :: normalizeItems rest

/-- Normalizes each field value. -/
def normalizeFields : List (String × Json) → List (String × Json)
  | [] => []
  | e :: rest => normalizeField e :: normalizeFields rest

def normalizeField : String × Json → String × Json
  | (k, j) => (k, normalize j)

end

def ascendingNames : List (String × Json) → Bool
  | a :: b :: rest => decide (a.1 < b.1) && ascendingNames (b :: rest)
  | _ => true

def Number.inRange : Number → Bool
  | .word _ => true
  | .negative i => Word.represents i && decide (i < 0)
  | .float x => x.isFinite

mutual

/-- Whether every value has a meaning. A reader that does not skip a value needs this of it. -/
def isReadable : Json → Bool
  | .arr items => itemsReadable items
  | .obj fields => fieldsReadable fields
  | .halved _ | .unreadable => false
  | _ => true

/-- Whether every item is readable. -/
def itemsReadable : List Json → Bool
  | [] => true
  | j :: rest => isReadable j && itemsReadable rest

/-- Whether every field value is readable. -/
def fieldsReadable : List (String × Json) → Bool
  | [] => true
  | e :: rest => fieldReadable e && fieldsReadable rest

def fieldReadable : String × Json → Bool
  | (_, j) => isReadable j

end

mutual

/-- Whether a document is normalized, meaningful throughout and has its numbers in range. -/
def isCanonical : Json → Bool
  | .num n => n.inRange
  | .arr items => itemsCanonical items
  | .obj fields => ascendingNames fields && fieldsCanonical fields
  | .halved _ | .unreadable => false
  | _ => true

/-- Whether every item is canonical. -/
def itemsCanonical : List Json → Bool
  | [] => true
  | j :: rest => isCanonical j && itemsCanonical rest

/-- Whether every field value is canonical. -/
def fieldsCanonical : List (String × Json) → Bool
  | [] => true
  | e :: rest => fieldCanonical e && fieldsCanonical rest

def fieldCanonical : String × Json → Bool
  | (_, j) => isCanonical j

end

end Json

/-- A value whose form the library does not prescribe. -/
structure FreeForm where
  json : Json
  canonical : json.isCanonical = true

def FreeForm.ofJson? (j : Json) : Option FreeForm :=
  if h : j.normalize.isCanonical = true then some ⟨j.normalize, h⟩ else none

end Federation
