import Federation.Message.Codec
import Federation.NodeStates
/-!
# Node states as JSON

The states of the nodes are the object of the state of each.
-/

namespace Federation

namespace NodeState

def toJson (s : NodeState Float) : Json :=
  .obj [("state_id", .word s.stateId), ("last_round", .option .word s.lastRound),
    ("control_variate", .option Parameters.toJson s.controlVariate)]

def ofJson? (j : Json) : Option (NodeState Float) := do
  let r ← j.asRecord? ["state_id", "last_round", "control_variate"] false
  return {
    stateId := ← r.required "state_id" Json.asWord?
    lastRound := ← r.optional "last_round" Json.asWord?
    controlVariate := ← r.optional "control_variate" Parameters.ofJson? }

end NodeState

namespace NodeStates

def toJson (s : NodeStates Float) : Json := .map NodeState.toJson s.states

def ofJson? (j : Json) : Option (NodeStates Float) := (j.asMap? NodeState.ofJson?).map mk

end NodeStates

end Federation
