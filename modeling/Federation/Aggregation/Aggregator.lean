import Federation.Aggregation.FedAverage
import Federation.Aggregation.Scaffold
/-!
# Aggregators

The rules by which an experiment combines the results of a round.
-/

namespace Federation

/-- A rule that combines the results of a round, with its state. -/
inductive Aggregator (R : Type) where
  | fedAverage
  | scaffold (s : Scaffold R)

structure Aggregated (R : Type) where
  global : Parameters R
  -- The new states of the participants.
  nodeStates : NameMap (NodeState R)
  -- The successor of the aggregator.
  aggregator : Aggregator R

namespace Aggregator

variable {R : Type} [Scalar R]

def name : Aggregator R → String
  | .fedAverage => FedAverage.name
  | .scaffold _ => Scaffold.name

def checkPreconditions (a : Aggregator R) (args : TrainingArgs R) (secure : Bool) :
    Except PreconditionError Unit :=
  match a with
  | .fedAverage => .ok ()
  | .scaffold _ => Scaffold.checkPreconditions args secure

def auxVarsFor (a : Aggregator R) (node : NodeId) (states : NodeStates R) (global : Parameters R) :
    Except AggregationError (AuxVars R) :=
  match a with
  | .fedAverage => .ok .empty
  | .scaffold s => s.auxVarsFor node states global

/-- Combines results that are known not to be empty. -/
def combine (a : Aggregator R) (i : AggregationInput R) : Except AggregationError (Aggregated R) :=
  match a with
  | .fedAverage => (FedAverage.aggregate i).map fun c => ⟨c.global, c.nodeStates, a⟩
  | .scaffold s => (s.aggregate i).map fun (c, s) => ⟨c.global, c.nodeStates, .scaffold s⟩

/-- Combines the results of a round. The new parameters are finite. -/
def aggregate (a : Aggregator R) (i : AggregationInput R) : Except AggregationError (Aggregated R) := do
  if i.results.isEmpty then throw .noResults
  let r ← a.combine i
  if !r.global.isFinite then throw .nonFinite
  return r

/-- Completes a secure round, whose mean was recovered from masked vectors. -/
def aggregateSecure (a : Aggregator R) (mean : Parameters R) (participants : List NodeId)
    (states : NodeStates R) : Except AggregationError (Aggregated R) :=
  match a with
  | .fedAverage => .ok ⟨mean, carryOver participants states, a⟩
  | .scaffold _ => .error (.secureAggregationUnsupported Scaffold.name)

end Aggregator

end Federation
