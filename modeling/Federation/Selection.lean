import Federation.Dataset
import Federation.NodeStates
/-!
# Selection of participants

Before each round a strategy selects its participants among the nodes of the federated dataset. The
selection is never empty and never leaves the dataset.
-/

namespace Federation

inductive SelectionError where
  | invalidSelection (node : NodeId)
  | empty
  deriving DecidableEq

instance : Failure SelectionError where
  kind
    | .invalidSelection _ => "InvalidSelection"
    | .empty => "Empty"
  message?
    | .invalidSelection node => s!"{node} was selected but is not part of the federated dataset."
    | .empty => "No node was selected."

inductive Strategy (R : Type) where
  -- Every available node.
  | allAvailable
  -- The nodes that a function of the round, the dataset and the node states lists.
  | custom (name : String) (choose : RoundNumber → FederatedDataset → NodeStates R → List NodeId)

namespace Strategy

variable {R : Type}

def name : Strategy R → String
  | .allAvailable => "AllAvailable"
  | .custom name _ => name

def availableNodes (d : FederatedDataset) : NameSet :=
  .setOf ((d.records.values.filter (·.available)).map (·.nodeId))

/-- The selected nodes, checked to be nodes of the dataset. -/
def selected (s : Strategy R) (round : RoundNumber) (d : FederatedDataset) (states : NodeStates R) :
    Except SelectionError NameSet :=
  match s with
  | .allAvailable => .ok (availableNodes d)
  | .custom _ choose =>
    let nodes := choose round d states
    match nodes.find? fun node => !d.contains node with
    | some node => .error (.invalidSelection node)
    | none => .ok (.setOf nodes)

def select (s : Strategy R) (round : RoundNumber) (d : FederatedDataset) (states : NodeStates R) :
    Except SelectionError NameSet := do
  let nodes ← s.selected round d states
  if nodes.isEmpty then throw .empty
  return nodes

end Strategy

end Federation
