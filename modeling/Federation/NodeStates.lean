import Federation.Parameters
import Federation.StateLedger
/-!
# States of the nodes

What the controller knows of each node between rounds: the state the node continues from, the last
completed round it took part in, and the control variate that an aggregator keeps for it.
-/

namespace Federation

structure NodeState (R : Type) where
  -- The last state the node produced in a completed round.
  stateId : StateId := StateId.initial
  lastRound : Option RoundNumber := none
  controlVariate : Option (Parameters R) := none

structure NodeStates (R : Type) where
  states : NameMap (NodeState R)

namespace NodeStates

variable {R : Type}

/-- Nothing is known of any node. -/
def empty : NodeStates R := ⟨.empty⟩

/-- What is known of a node, by default that it starts afresh. -/
def stateFor (s : NodeStates R) (node : NodeId) : NodeState R := (s.states.find? node).getD {}

/-- Replaces what is known of a node. -/
def update (s : NodeStates R) (node : NodeId) (state : NodeState R) : NodeStates R :=
  ⟨s.states.insert node state⟩

def expectedStateId (s : NodeStates R) (node : NodeId) : StateId := (s.stateFor node).stateId

def retain (s : NodeStates R) (keep : NodeId → Bool) : NodeStates R :=
  ⟨s.states.filter fun node _ => keep node⟩

end NodeStates

end Federation
