import Federation.Failure
import Federation.SortedMap
/-!
# States of a node

Every node numbers its local states. A work request names the state the node continues from, and
completing the request produces the successor of that state. The node notes the states it produced in
a `StateLedger`, so it notices when it is asked to continue from a state it never had.
-/

namespace Federation

abbrev StateId := UInt64

namespace StateId

def initial : StateId := 0

/-- The state produced by continuing from a state. The last one is its own successor. -/
def successor (s : StateId) : StateId := if s.toNat + 1 < UInt64.size then s + 1 else s

def label (s : StateId) : String := "state#" ++ toString s.toNat

end StateId

/-- A node was asked for a state it never produced. -/
structure StateMismatch where
  requested : StateId
  latest : StateId
  deriving DecidableEq

instance : Failure StateMismatch where
  kind _ := "StateMismatch"
  message? e :=
    s!"the node never produced {e.requested.label}, its latest state is {e.latest.label}"

/-- The states a node has produced. The initial one is always among them. -/
structure StateLedger where
  produced : List StateId := []

namespace StateLedger

def holds (l : StateLedger) (s : StateId) : Bool := s == StateId.initial || l.produced.contains s

def latest (l : StateLedger) : StateId := l.produced.foldl max StateId.initial

def check (l : StateLedger) (requested : StateId) : Except StateMismatch Unit :=
  if l.holds requested then .ok () else .error ⟨requested, l.latest⟩

/-- Notes the state produced by continuing from a state, and names it. -/
def record (l : StateLedger) (source : StateId) : StateLedger × StateId :=
  (⟨source.successor :: l.produced⟩, source.successor)

end StateLedger

end Federation
