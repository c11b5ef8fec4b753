import Federation.Message.Basic
import Federation.NodeStates
/-!
# Aggregation

The results of the participants of a round are combined into new global parameters, in ascending
order of the nodes. An aggregation changes nothing: it returns the new parameters together with the
new node states and the successor of the aggregator, and the controller keeps all of them at once.
-/

namespace Federation

inductive AggregationError where
  | noResults
  | zeroWeight
  | weightOverflow
  | shapeMismatch (node : NodeId) (e : ShapeError)
  | nonFinite
  | optimizerState (e : ShapeError)
  | missingTrainingArg (name : String)
  | secureAggregationUnsupported (name : String)
  deriving DecidableEq

instance : Failure AggregationError where
  kind
    | .noResults => "NoResults"
    | .zeroWeight => "ZeroWeight"
    | .weightOverflow => "WeightOverflow"
    | .shapeMismatch .. => "ShapeMismatch"
    | .nonFinite => "NonFinite"
    | .optimizerState _ => "OptimizerState"
    | .missingTrainingArg _ => "MissingTrainingArg"
    | .secureAggregationUnsupported _ => "SecureAggregationUnsupported"
  message?
    | .noResults => "There are no results to aggregate."
    | .zeroWeight => "The total sample count of the participants is zero."
    | .weightOverflow => "The total sample count of the participants overflows."
    | .shapeMismatch node e =>
      s!"The parameters of {node} are incompatible: {Failure.message e}."
    | .nonFinite => "The aggregated parameters are not finite."
    | .optimizerState e =>
      s!"The state of the server optimizer doesn't fit the parameters: {Failure.message e}."
    | .missingTrainingArg name => s!"The training arguments lack `{name}`."
    | .secureAggregationUnsupported name => s!"{name} does not support secure aggregation."

/-- The configuration of an experiment does not suit its aggregator or optimizer. -/
inductive PreconditionError where
  | fixedIterations (name : String)
  | learningRate (name : String)
  | secureAggregation (name : String)
  | optimizer (name : String)
  deriving DecidableEq

instance : Failure PreconditionError where
  kind
    | .fixedIterations _ => "FixedIterations"
    | .learningRate _ => "LearningRate"
    | .secureAggregation _ => "SecureAggregation"
    | .optimizer _ => "Optimizer"
  message?
    | .fixedIterations name => s!"{name} requires a fixed number of local updates (`num_updates`)."
    | .learningRate name => s!"{name} requires a positive local learning rate."
    | .secureAggregation name => s!"{name} can't be combined with secure aggregation."
    | .optimizer name => s!"The hyperparameters of the {name} server optimizer are invalid."

structure NodeUpdate (R : Type) where
  params : Parameters R
  sampleCount : UInt64
  auxVars : AuxVars R

structure AggregationInput (R : Type) where
  results : NameMap (NodeUpdate R)
  -- The global parameters from which the participants started.
  previous : Parameters R
  nodeStates : NodeStates R
  trainingArgs : TrainingArgs R
  -- The number of nodes of the federation, whether they took part or not.
  federationSize : Nat

structure Combined (R : Type) where
  global : Parameters R
  nodeStates : NameMap (NodeState R)

section

variable {R : Type}

/-- The sum of the sample counts, unless it exceeds a word or is zero. -/
def totalSamples (results : NameMap (NodeUpdate R)) : Except AggregationError UInt64 :=
  if results.isEmpty then .error .noResults
  else
    let total := (results.values.map fun u => u.sampleCount.toNat).foldr (· + ·) 0
    if UInt64.size ≤ total then .error .weightOverflow
    else if total = 0 then .error .zeroWeight
    else .ok (UInt64.ofNat total)

def NodeUpdate.share [Scalar R] (total : UInt64) (u : NodeUpdate R) : R :=
  Scalar.ofCount u.sampleCount / Scalar.ofCount total

/-- The weight of every participant. -/
def weights [Scalar R] (results : NameMap (NodeUpdate R)) : Except AggregationError (NameMap R) := do
  let total ← totalSamples results
  return results.map fun _ u => u.share total

/-- Refuses results of another layout, naming the first such node. -/
def checkShapes (results : NameMap (NodeUpdate R)) (reference : Parameters R) :
    Except AggregationError Unit :=
  match results.toList.findSome? fun (node, u) =>
      (reference.mismatch? u.params).map (AggregationError.shapeMismatch node) with
  | some e => .error e
  | none => .ok ()

/-- The states of the participants, as they are. -/
def carryOver (participants : List NodeId) (states : NodeStates R) : NameMap (NodeState R) :=
  .ofList (participants.map fun node => (node, states.stateFor node))

end

end Federation
