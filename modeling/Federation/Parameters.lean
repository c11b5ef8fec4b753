import Federation.Failure
import Federation.Scalar
import Federation.SortedMap
/-!
# Parameters

The parameters of a model are named layers of numbers. Two parameters have the same layout if they
have the same layers with the same lengths, and only then are they combined, number by number.
`flatten` lists all numbers in the order of the layers; `unflatten` cuts such a list up again.
-/

namespace Federation

inductive ShapeError where
  | missingLayer (name : String)
  | unexpectedLayer (name : String)
  | layerLength (name : String) (expected actual : Nat)
  | flatLength (expected actual : Nat)
  deriving DecidableEq

instance : Failure ShapeError where
  kind
    | .missingLayer _ => "MissingLayer"
    | .unexpectedLayer _ => "UnexpectedLayer"
    | .layerLength .. => "LayerLength"
    | .flatLength .. => "FlatLength"
  message?
    | .missingLayer name => s!"layer {name} is missing"
    | .unexpectedLayer name => s!"layer {name} is unexpected"
    | .layerLength name expected actual => s!"layer {name} has length {actual}, expected {expected}"
    | .flatLength expected actual => s!"flat vector has length {actual}, expected {expected}"

structure Parameters (R : Type) where
  layers : NameMap (List R)

namespace Parameters

variable {R : Type}

instance : Inhabited (Parameters R) := ⟨⟨.empty⟩⟩

/-- The parameters with the given layers, of which a later one replaces an earlier one. -/
def ofLayers (l : List (String × List R)) : Parameters R := ⟨.ofList l⟩

def length (p : Parameters R) : Nat := (p.layers.values.map List.length).foldr (· + ·) 0

/-- Whether there are no layers at all. -/
def hasNoLayers (p : Parameters R) : Bool := p.layers.isEmpty

/-- The first layer of `a` which `b` lacks or has with another length, or else the first layer that
only `b` has. -/
def mismatch? (a b : Parameters R) : Option ShapeError :=
  let missing := a.layers.toList.findSome? fun (name, values) =>
    match b.layers.find? name with
    | none => some (.missingLayer name)
    | some others =>
      if others.length = values.length then none
      else some (.layerLength name values.length others.length)
  missing.or ((b.layers.keys.find? fun name => !a.layers.contains name).map .unexpectedLayer)

def checkShape (a b : Parameters R) : Except ShapeError Unit :=
  match a.mismatch? b with
  | some e => .error e
  | none => .ok ()

/-- Applies a function to every value. -/
def map {S : Type} (f : R → S) (p : Parameters R) : Parameters S :=
  ⟨p.layers.map fun _ values => values.map f⟩

def zipWith (a b : Parameters R) (f : R → R → R) : Except ShapeError (Parameters R) := do
  a.checkShape b
  return ⟨a.layers.map fun name values => values.zipWith f ((b.layers.find? name).getD [])⟩

/-- The values of all layers, in the order of the layers. -/
def flatten (p : Parameters R) : List R := p.layers.values.flatten

/-- Fills layers with the values of a list, in order. -/
def refill : List (String × List R) → List R → List (String × List R)
  | [], _ => []
  | e :: rest, flat => (e.1, flat.take e.2.length) :: refill rest (flat.drop e.2.length)

theorem keys_refill (l : List (String × List R)) (flat : List R) :
    (refill l flat).map Prod.fst = l.map Prod.fst := by
  induction l generalizing flat with
  | nil => rfl
  | cons e l ih => simp [refill, ih]

/-- The parameters of the same layout with the values of a list of the same length. -/
def unflatten (p : Parameters R) (flat : List R) : Except ShapeError (Parameters R) :=
  if flat.length = p.length then
    .ok ⟨refill p.layers.entries flat,
      SortedMap.Ascending.of_keys (keys_refill _ _) p.layers.ascending⟩
  else .error (.flatLength p.length flat.length)

section Scalar

variable [Scalar R]

def zerosLike (p : Parameters R) : Parameters R := p.map fun _ => 0

def addScaled (a : Parameters R) (weight : R) (b : Parameters R) : Except ShapeError (Parameters R) :=
  a.zipWith b fun x y => x + weight * y

/-- Whether every value is finite. -/
def isFinite (p : Parameters R) : Bool := p.layers.values.all fun values => values.all Scalar.isFinite

end Scalar

end Parameters

end Federation
